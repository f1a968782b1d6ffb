import Rufux.Create.Effects.Options

/-!
`rufux_create` on macOS as calls of the system. The flows keep what they have taken in local
variables and give it back at the end, however they got there.
-/

namespace Rufux.Create.Effects.Macos

open Library Block

/-- The target, the disk that is worked on, its partitions, and the image that is attached. -/
inductive Node where
  | target
  | work
  | first
  | second
  | image
  deriving DecidableEq

/-- Each call is answered by yes or no. -/
inductive Op where
  | isBootDisk (node : Node)
  | isDisk
  | isDir
  | isRegular (node : Node)
  | isThere (node : Node)
  | needRoot
  | smartFailed
  | checkTarget (node : Node) (allowFixed allowFile : Bool)
  | have (tool : String)
  | sectorSupported (node : Node)
  | holds64Mib (node : Node)
  | holdsEsp (node : Node)
  | layoutFits (node : Node)
  | fat16Fits (node : Node)
  | sectorsKnown (node : Node)
  | ntfsFits (node : Node)
  | waitNode (node : Node)
  | unmountDisk (node : Node)
  | unmountIfMounted (node : Node)
  | openDisk (node : Node)
  | wipeTables (node : Node)
  | writeTables (node : Node)
  | mkfs (node : Node) (fs : String)
  | mkfsFromDir (node : Node) (fs : String)
  | attachFormat
  | detachFormat
  | writeMbr (node : Node)
  | runSyslinux (node : Node)
  | zeroHead (node : Node)
  | wipeEdges (node : Node)
  | writeUefiNtfs (node : Node)
  | biosInstall (node : Node)
  | ntfsfix (node : Node)
  | dosPbr (node : Node)
  | dosMbr (node : Node)
  | sourceReadable
  | sameFile
  | openSource
  | readSource
  | openTarget
  | targetHolds
  | writeImage
  | compareImage
  | detectFailed
  | isVdisk
  | vhdAdjust
  | expandedFits
  | resolveSource
  | truncate
  | convert
  | compareExpanded
  | scanSized
  | pattern (pass : Nat)
  | sourceOver4Gib
  | canExtract
  | extractDir
  | autorunDir
  | persistDir
  | attachImage
  | detachImage
  | makeMountDir
  | removeMountDir
  | mountPrivate
  | rufuxMount
  | unmountPrivate (attempt : Nat)
  | rufuxUnmount
  | noIndex
  | scratchTree
  | scratchTreeNamed
  | removeTree
  | scratchImage
  | scratchImageNamed
  | removeImage
  | mountIso
  | unmountIso
  | extractTree (mounted : Bool)
  | extractTreeWithoutImage (mounted : Bool)
  | autorunTree (mounted : Bool)
  | persistTree (mounted : Bool)
  | customizeTree (mounted : Bool)
  | verifyTree
  | copyDos
  | populateNtfs (node : Node)
  | isoImageFits
  | writeFromIso (node : Node)
  | extractImage
  | imageExtracted
  | writeFromImage (node : Node)
  | findEntry
  | entryStreams
  | windowsCheck
  | freedosDir
  | oversizeEsd
  | fitsFat
  | splitFromIso (mounted : Bool)
  | splitFromImage (mounted : Bool)

abbrev Answer (_ : Op) : Type := Bool

abbrev Proc (L α : Type) : Type := Block Op Answer L α

def call {L : Type} (op : Op) : Proc L Bool := ask op

section Steps

variable {L : Type}

def rufuxPartition (node : Node) (o : PartOpts) : Proc L Unit := do
  must (o.scheme = "gpt" || o.scheme = "dos" || o.scheme = "mbr")
  must (o.layout = "single" || o.layout = "esp+main" || o.layout = "main+uefintfs")
  must (o.dryRun || o.yes)
  must (← call (.checkTarget node o.allowFixed o.allowFile))
  must (← call (.sectorSupported node))
  onlyIf (o.layout = "main+uefintfs" ||
      (o.layout = "single" && o.biosBoot && o.scheme = "gpt")) do
    must (← call (.holds64Mib node))
  onlyIf (!o.dryRun) do
    onlyIf (o.layout = "esp+main") do
      must (← call (.holdsEsp node))
    must (← call (.layoutFits node))
    must (← call (.isThere node))
    let regular ← call (.isRegular node)
    onlyIf (!regular) do
      must (← call (.unmountDisk node))
    must (← call (.openDisk node))
    must (← call (.wipeTables node))
    must (← call (.writeTables node))

def formatExt (node : Node) (o : MkfsOpts) (fromDir : Bool) : Proc L Unit := do
  must (← call (.have "mkfs.ext4"))
  let boot ← call (.isBootDisk node)
  must (!boot)
  onlyIf (!o.dryRun) do
    let _ ← call (.unmountIfMounted node)
    if fromDir then do
      must (← call (.mkfsFromDir node o.fs))
    else do
      must (← call (.mkfs node o.fs))

def rufuxFormatExtFromDir (node : Node) (o : MkfsOpts) : Proc L Unit := do
  let boot ← call (.isBootDisk node)
  must (!boot)
  must (fsIsExt o.fs)
  must (o.dryRun || o.yes)
  must (labelFits o.fs o.label)
  must (← call (.checkTarget node o.allowFixed o.allowFile))
  formatExt node o true

/-- The formatters of the system want a device, so a regular file is attached for them. -/
def formatAttached (node : Node) (fs : String) : Proc L Unit := do
  must (← call .attachFormat)
  let boot ← call (.isBootDisk .image)
  if boot then do
    let _ ← call .detachFormat
    leave
  else do
    let made ← call (.mkfs node fs)
    let _ ← call (.unmountIfMounted .image)
    let detached ← call .detachFormat
    must (detached && made)

def formatNative (node : Node) (o : MkfsOpts) : Proc L Unit := do
  must (← call (.have "newfs"))
  onlyIf (fsIsFat16 o.fs) do
    must (← call (.fat16Fits node))
  onlyIf (!o.dryRun) do
    let regular ← call (.isRegular node)
    if regular then formatAttached node o.fs
    else do
      let _ ← call (.unmountIfMounted node)
      must (← call (.mkfs node o.fs))

def formatNtfs (node : Node) (o : MkfsOpts) : Proc L Unit := do
  must (← call (.have "mkfs.ntfs"))
  let boot ← call (.isBootDisk node)
  must (!boot)
  onlyIf (!o.dryRun) do
    let _ ← call (.unmountIfMounted node)
    must (← call (.sectorsKnown node))
    must (← call (.mkfs node "ntfs"))
    must (← call (.ntfsFits node))

def fsSupported (fs : String) : Bool :=
  fsIsFat fs || fs = "exfat" || fs = "udf" || fs = "ntfs" || fsIsExt fs

def rufuxFormat (node : Node) (o : MkfsOpts) : Proc L Unit := do
  let boot ← call (.isBootDisk node)
  must (!boot)
  must (o.fs ≠ "")
  must (o.dryRun || o.yes)
  must (fsSupported o.fs)
  must (labelFits o.fs o.label)
  must (← call (.checkTarget node o.allowFixed o.allowFile))
  if fsIsExt o.fs then formatExt node o false
  else do
    must (← call (.isThere node))
    if o.fs = "ntfs" then formatNtfs node o else formatNative node o

def rufuxInstallMbr (node : Node) (o : BootOpts) : Proc L Unit := do
  must (o.kind = "bios" || o.kind = "gpt")
  must (o.dryRun || o.yes)
  must (← call (.checkTarget node o.allowFixed o.allowFile))
  onlyIf (!o.dryRun) do
    must (← call (.openDisk node))
    must (← call (.writeMbr node))

def rufuxWriteImage (o : WriteOpts) : Proc L Unit := do
  must (← call .sourceReadable)
  must (← call (.checkTarget .target o.allowFixed o.allowFile))
  let same ← call .sameFile
  must (!same)
  must (← call .openSource)
  if o.dryRun then do
    must (← call .readSource)
  else do
    must o.yes
    let regular ← call (.isRegular .target)
    onlyIf (!regular) do
      must (← call (.unmountDisk .target))
    must (← call .openTarget)
    must (← call .targetHolds)
    must (← call .writeImage)
    onlyIf o.verify do
      must (← call .compareImage)

def rufuxVdiskWrite (o : WriteOpts) : Proc L Unit := do
  must (← call (.checkTarget .target o.allowFixed o.allowFile))
  must (← call .expandedFits)
  must (← call .resolveSource)
  let same ← call .sameFile
  must (!same)
  onlyIf (!o.dryRun) do
    must o.yes
    let regular ← call (.isRegular .target)
    onlyIf regular do
      must (← call .truncate)
    onlyIf (!regular) do
      must (← call (.unmountDisk .target))
    must (← call .convert)
    onlyIf o.verify do
      must (← call .compareExpanded)

/-- One pass of `rufux_badblocks_write`, whose guard lets fixed disks through. -/
def rufuxBadblocksWrite (allowFile : Bool) (pass : Nat) : Proc L Unit := do
  must (← call (.checkTarget .target true allowFile))
  let regular ← call (.isRegular .target)
  onlyIf (!regular) do
    must (← call (.unmountDisk .target))
  must (← call .scanSized)
  must (← call (.pattern pass))

def badblocksFrom (allowFile : Bool) : Nat → Nat → Proc L Unit
  | _, 0 => pure ()
  | pass, left + 1 => do
      rufuxBadblocksWrite allowFile pass
      badblocksFrom allowFile (pass + 1) left

def runBadblocks (passes : Nat) (allowFile : Bool) : Proc L Unit := badblocksFrom allowFile 0 passes

def vfatSizeGuard (fs : String) : Proc L Unit :=
  onlyIf (fsIsFat fs) do
    let large ← call .sourceOver4Gib
    must (!large)

def syslinuxBestEffort (node : Node) : Proc L Unit := do
  let installed ← call (.have "syslinux")
  onlyIf installed do
    must (← call (.runSyslinux node))

/-- The dry run of the flows that write a disk. -/
def planTarget (o : CreateOpts) : Proc L Unit := do
  must (← call (.checkTarget .target o.allowFixed o.allowFile))

def flowDd (o : CreateOpts) : Proc L Unit := do
  let failed ← call .detectFailed
  must (!failed)
  let vdisk ← call .isVdisk
  if vdisk then rufuxVdiskWrite o.writeOpts
  else do
    must (← call .vhdAdjust)
    rufuxWriteImage o.writeOpts

def flowExtractDir (o : CreateOpts) : Proc L Unit := do
  vfatSizeGuard o.fs
  if o.dryRun then do
    must (← call .canExtract)
  else do
    must (← call .extractDir)
    onlyIf o.extendedLabel do
      must (← call .autorunDir)
    onlyIf (o.persistMb ≠ 0) do
      must (← call .persistDir)

def singlePartition (o : CreateOpts) : PartOpts where
  scheme := o.scheme
  layout := "single"
  biosBoot := false
  dryRun := false
  allowFixed := o.allowFixed
  allowFile := o.allowFile
  yes := true

def fileSystem (o : CreateOpts) (fs : String) (fixed : Bool) : MkfsOpts where
  fs := fs
  label := o.label
  dryRun := false
  allowFixed := fixed
  allowFile := false
  yes := true

def bootRecord (o : CreateOpts) (fixed : Bool) : BootOpts where
  kind := if o.scheme = "gpt" then "gpt" else "bios"
  dryRun := false
  allowFixed := fixed
  allowFile := false
  yes := true

def flowFormat (o : CreateOpts) : Proc L Unit := do
  let disk ← call .isDisk
  if o.dryRun then planTarget o
  else if disk then do
    rufuxPartition .work { singlePartition o with allowFile := false }
    must (← call (.waitNode .first))
    onlyIf (!o.quickFormat) do
      must (← call (.zeroHead .first))
    let _ ← call (.wipeEdges .first)
    rufuxFormat .first (fileSystem o o.fs o.allowFixed)
    onlyIf (o.scheme = "dos" && (fsIsFat o.fs || startsExt o.fs)) (syslinuxBestEffort .first)
    rufuxInstallMbr .work (bootRecord o o.allowFixed)
  else rufuxFormat .target { fileSystem o o.fs o.allowFixed with allowFile := o.allowFile }

end Steps

/-- What a flow has taken and must give back, as its local variables say. -/
structure Taken where
  attached : Bool
  subFixed : Bool
  mounted : Bool
  usedMount : Bool
  staged : Bool
  imageStaged : Bool
  isoMounted : Bool
  deriving DecidableEq

def Taken.start (fixed : Bool) : Taken where
  attached := false
  subFixed := fixed
  mounted := false
  usedMount := false
  staged := false
  imageStaged := false
  isoMounted := false

abbrev Flow (α : Type) : Type := Proc Taken α

def attachImage : Flow Unit := do
  must (← call .attachImage)
  update fun taken => { taken with attached := true }

def detachImage : Flow Unit := do
  let _ ← call .detachImage
  update fun taken => { taken with attached := false }

/-- `partition_and_attach_if_file`: an image is attached so that its partitions have nodes, twice
when they do not show up. -/
def partitionAndAttach (o : PartOpts) : Flow Unit := do
  must (← call (.checkTarget .target o.allowFixed o.allowFile))
  rufuxPartition .target o
  let regular ← call (.isRegular .target)
  if regular then do
    attachImage
    update fun taken => { taken with subFixed := true }
    let there ← call (.isThere .first)
    onlyIf (!there) do
      detachImage
      attachImage
  else update fun taken => { taken with subFixed := o.allowFixed }

/-- A private mount point, when the system grants one. -/
def mountPrivate : Flow Bool := do
  let made ← call .makeMountDir
  if made then do
    let mounted ← call .mountPrivate
    onlyIf (!mounted) do
      let _ ← call .removeMountDir
    pure mounted
  else pure false

def mountFallback (mounted : Bool) : Flow Unit :=
  if mounted then update fun taken => { taken with mounted := true, usedMount := false }
  else do
    must (← call .rufuxMount)
    update fun taken => { taken with mounted := true, usedMount := true }

/-- `mount_native_private`, with the variables that its caller sets when it succeeds. -/
def mountNativePrivate (touchNoIndex : Bool) : Flow Unit := do
  let _ ← call (.unmountIfMounted .first)
  let mounted ← mountPrivate
  mountFallback mounted
  onlyIf touchNoIndex do
    let _ ← call .noIndex

/-- `unmount_native_private`. The variable is cleared before, so that it is not tried again. -/
def unmountNativePrivate : Flow Unit := do
  let taken ← locals
  update fun taken => { taken with mounted := false }
  if taken.usedMount then do
    must (← call .rufuxUnmount)
  else do
    let plain ← call (.unmountPrivate 1)
    onlyIf (!plain) do
      let forced ← call (.unmountPrivate 2)
      onlyIf (!forced) do
        must (← call (.unmountPrivate 3))
    let _ ← call .removeMountDir

/-- A scratch directory. A failure can leave the name of one in the variable. -/
def scratchTree : Flow Unit := do
  let made ← call .scratchTree
  if made then update fun taken => { taken with staged := true }
  else do
    let named ← call .scratchTreeNamed
    update fun taken => { taken with staged := named }
    leave

def removeTree : Flow Unit := do
  let _ ← call .removeTree
  update fun taken => { taken with staged := false }

def scratchImage : Flow Unit := do
  let made ← call .scratchImage
  if made then update fun taken => { taken with imageStaged := true }
  else do
    let named ← call .scratchImageNamed
    update fun taken => { taken with imageStaged := named }
    leave

def removeImage : Flow Unit := do
  let _ ← call .removeImage
  update fun taken => { taken with imageStaged := false }

/-- The end of every flow, in the order of the source. -/
def cleanup : Flow Unit := do
  let taken ← locals
  onlyIf taken.isoMounted do
    let _ ← call .unmountIso
  onlyIf taken.mounted do
    let _ ← attempt unmountNativePrivate
  onlyIf taken.imageStaged removeImage
  onlyIf taken.staged removeTree
  onlyIf taken.attached do
    let _ ← call (.unmountDisk .image)
    detachImage

/-- The node of the first partition, its head cleared in a full format, and its edges. -/
def clearFirst (o : CreateOpts) : Flow Unit := do
  must (← call (.waitNode .first))
  onlyIf (!o.quickFormat) do
    must (← call (.zeroHead .first))

def fillTree (o : CreateOpts) (mounted : Bool) : Flow Unit := do
  must (← call (.extractTree mounted))
  onlyIf o.extendedLabel do
    must (← call (.autorunTree mounted))
  onlyIf (o.persistMb ≠ 0) do
    must (← call (.persistTree mounted))

/-- ext and NTFS are filled from a staged copy, since the system cannot write them. -/
def stagedTree (o : CreateOpts) : Flow Unit := do
  scratchTree
  let taken ← locals
  onlyIf (o.fs = "ntfs") (rufuxFormat .first (fileSystem o o.fs taken.subFixed))
  fillTree o false
  if startsExt o.fs then do
    rufuxFormatExtFromDir .first (fileSystem o o.fs taken.subFixed)
    onlyIf (o.scheme = "dos") (syslinuxBestEffort .first)
  else do
    must (← call (.populateNtfs .first))

def mountedTree (o : CreateOpts) : Flow Unit := do
  let taken ← locals
  rufuxFormat .first (fileSystem o o.fs taken.subFixed)
  onlyIf (o.scheme = "dos" && fsIsFat o.fs) (syslinuxBestEffort .first)
  mountNativePrivate true
  fillTree o true
  unmountNativePrivate

def installMbr (o : CreateOpts) : Flow Unit := do
  let taken ← locals
  rufuxInstallMbr .work (bootRecord o taken.subFixed)

def fillDisk (o : CreateOpts) : Flow Unit :=
  if startsExt o.fs || o.fs = "ntfs" then stagedTree o else mountedTree o

def extractDiskBody (o : CreateOpts) : Flow Unit := do
  partitionAndAttach (singlePartition o)
  clearFirst o
  let _ ← call (.wipeEdges .first)
  fillDisk o
  installMbr o

def dosBody (o : CreateOpts) : Flow Unit := do
  partitionAndAttach { singlePartition o with scheme := "dos" }
  must (← call (.waitNode .first))
  let _ ← call (.wipeEdges .first)
  let taken ← locals
  rufuxFormat .first (fileSystem o "vfat" taken.subFixed)
  mountNativePrivate false
  must (← call .copyDos)
  unmountNativePrivate
  must (← call (.dosPbr .first))
  must (← call (.dosMbr .work))

def isGpt (o : CreateOpts) : Bool := o.scheme ≠ "dos"

def isFat32 (o : CreateOpts) : Bool := o.fs = "vfat" || o.fs = "fat32"

def windowsPartition (o : CreateOpts) : PartOpts where
  scheme := if isGpt o then "gpt" else "dos"
  layout := if isFat32 o then "single" else "main+uefintfs"
  biosBoot := isGpt o
  dryRun := false
  allowFixed := o.allowFixed
  allowFile := o.allowFile
  yes := true

/-- The image is split where it lies when the ISO can be mounted. -/
def splitMounted (mounted : Bool) : Flow Bool := do
  let attached ← call .mountIso
  if attached then do
    let fits ← call .isoImageFits
    let split ← if fits then call (.splitFromIso mounted) else pure false
    let _ ← call .unmountIso
    pure split
  else pure false

def splitCopied (mounted : Bool) : Flow Unit := do
  must (← call .scratchImage)
  let extracted ← call .extractImage
  let split ← if extracted then call (.splitFromImage mounted) else pure false
  let _ ← call .removeImage
  must split

/-- `rufux_extract_windows_split`. -/
def extractWindowsSplit (force mounted : Bool) : Flow Unit := do
  must (← call (.have "7z"))
  let oversize ← call .oversizeEsd
  must (!oversize)
  let fits ← call .fitsFat
  if !force && fits then do
    must (← call (.extractTree mounted))
  else do
    must (← call .findEntry)
    must (← call (.have "wimlib-imagex"))
    must (← call (.extractTreeWithoutImage mounted))
    let split ← splitMounted mounted
    onlyIf (!split) (splitCopied mounted)

def customize (o : CreateOpts) (mounted : Bool) : Flow Unit :=
  onlyIf o.customizes do
    must (← call (.customizeTree mounted))

def windowsFat (o : CreateOpts) : Flow Unit := do
  mountNativePrivate true
  extractWindowsSplit (o.splitWimMb ≠ 0) true
  customize o true
  must (← call .verifyTree)
  unmountNativePrivate

/-- The install image written from the mounted ISO, where it can be read in full. -/
def streamFromIso : Flow Bool := do
  let attached ← call .mountIso
  if attached then do
    update fun taken => { taken with isoMounted := true }
    let fits ← call .isoImageFits
    let wrote ← if fits then call (.writeFromIso .first) else pure false
    let _ ← call .unmountIso
    update fun taken => { taken with isoMounted := false }
    pure wrote
  else pure false

def writeFromScratch : Flow Unit := do
  scratchImage
  must (← call .extractImage)
  must (← call .imageExtracted)
  must (← call (.writeFromImage .first))
  removeImage

/-- The tree is staged without the install image, which follows on its own. -/
def windowsStreamed (o : CreateOpts) : Flow Unit := do
  must (← call (.extractTreeWithoutImage false))
  customize o false
  must (← call .verifyTree)
  must (← call (.populateNtfs .first))
  removeTree
  let wrote ← streamFromIso
  onlyIf (!wrote) writeFromScratch

def extractWhole (o : CreateOpts) : Flow Unit :=
  if o.splitWimMb ≠ 0 then extractWindowsSplit true false
  else do
    must (← call (.extractTree false))

def windowsWhole (o : CreateOpts) : Flow Unit := do
  extractWhole o
  customize o false
  must (← call .verifyTree)
  must (← call (.populateNtfs .first))
  removeTree

def findInstall (o : CreateOpts) : Flow Bool :=
  if o.splitWimMb ≠ 0 then pure false
  else do
    let installed ← call (.have "7z")
    if installed then do
      let found ← call .findEntry
      if found then call .entryStreams else pure false
    else pure false

def windowsNtfs (o : CreateOpts) : Flow Unit := do
  let streams ← findInstall o
  scratchTree
  if streams then windowsStreamed o else windowsWhole o

def writeLoader (o : CreateOpts) : Flow Unit :=
  onlyIf (!isFat32 o) do
    must (← call (.waitNode .second))
    must (← call (.writeUefiNtfs .second))

def fillWindows (o : CreateOpts) : Flow Unit :=
  if isFat32 o then windowsFat o else windowsNtfs o

def clearNtfs : Flow Unit := do
  let installed ← call (.have "ntfsfix")
  onlyIf installed do
    let _ ← call (.ntfsfix .first)

def windowsBody (o : CreateOpts) : Flow Unit := do
  partitionAndAttach (windowsPartition o)
  must (← call (.waitNode .first))
  writeLoader o
  onlyIf (!o.quickFormat) do
    must (← call (.zeroHead .first))
  must (← call (.wipeEdges .first))
  let taken ← locals
  rufuxFormat .first (fileSystem o (if isFat32 o then "vfat" else "ntfs") taken.subFixed)
  fillWindows o
  -- legacy boot code is best effort
  let _ ← call (.biosInstall .work)
  onlyIf (!isFat32 o) clearNtfs

section Flows

variable {L : Type}

def flowExtractDisk (o : CreateOpts) : Proc L Unit := do
  vfatSizeGuard o.fs
  if o.dryRun then planTarget o
  else scope (Taken.start o.allowFixed) (extractDiskBody o) cleanup

def flowDos (o : CreateOpts) : Proc L Unit :=
  if o.dryRun then planTarget o
  else do
    must (← call .freedosDir)
    scope (Taken.start o.allowFixed) (dosBody o) cleanup

def flowWindows (o : CreateOpts) : Proc L Unit := do
  must (isFat32 o || o.fs = "ntfs")
  if o.dryRun then planTarget o
  else do
    must (← call .windowsCheck)
    scope (Taken.start o.allowFixed) (windowsBody o) cleanup

/-- The checks, the scans and the clearing that come before the flow. -/
def prepare (o : CreateOpts) : Proc L Unit := do
  let boot ← call (.isBootDisk .target)
  must (!boot)
  must (o.dryRun || o.yes)
  onlyIf (!o.dryRun) do
    let disk ← call .isDisk
    onlyIf disk do
      must (← call .needRoot)
      must (← call (.unmountDisk .target))
  let disk ← call .isDisk
  onlyIf (disk && !o.dryRun) do
    let failing ← call .smartFailed
    must (!failing || o.ignoreSmart)
  onlyIf (!o.dryRun) (runBadblocks o.badblockPasses o.allowFile)
  onlyIf (!o.dryRun && !o.quickFormat) do
    let disk ← call .isDisk
    onlyIf (disk && o.mode = "dd") do
      must (← call (.zeroHead .target))

def flow (o : CreateOpts) (source : Bool) : Proc L Unit :=
  if o.mode = "dd" then flowDd o
  else if o.mode = "extract" then do
    let directory ← call .isDir
    if directory then flowExtractDir o else flowExtractDisk o
  else if o.mode = "format" then flowFormat o
  else if o.mode = "dos" then flowDos o
  else if o.mode = "windows" then do
    must source
    flowWindows o
  else leave

/-- With a source image or none. -/
def rufuxCreate (o : CreateOpts) (source : Bool) : Proc L Unit := do
  prepare o.normalised
  flow o.normalised source

end Flows

end Rufux.Create.Effects.Macos
