import Rufux.Create.Progress

/-!
`rufux_create` on macOS, with the results of the calls it makes and what they report.
-/

namespace Rufux.Create.Macos

open Library Reporting

structure ExtractDiskCalls where
  sizeGuard : Bool
  target : Bool
  partition : Bool
  node : Bool
  zero : Zeroed
  scratch : Bool
  format : Bool
  syslinux : Bool
  mount : Bool
  extract : Called
  autorun : Bool
  persist : Bool
  formatFromDir : Bool
  populate : Called
  unmount : Bool
  mbr : Bool

/-- The image extracted, with its label and its persistence file. -/
def copyTree (o : CreateOpts) (span : Nat) (calls : ExtractDiskCalls) : Step Unit := do
  within 8 span calls.extract
  onlyIf o.extendedLabel (must calls.autorun)
  onlyIf o.persist (must calls.persist)

/-- ext and NTFS are filled from a staged copy, since the system cannot write them. -/
def stagedTree (o : CreateOpts) (calls : ExtractDiskCalls) : Step Unit := do
  must calls.scratch
  onlyIf (o.fs = .ntfs) (must calls.format)
  stage 8
  copyTree o 52 calls
  if o.fs = .ext then do
    must calls.formatFromDir
    onlyIf o.dosScheme (must calls.syslinux)
  else within 60 28 calls.populate
  stage 90

def mountedTree (o : CreateOpts) (calls : ExtractDiskCalls) : Step Unit := do
  must calls.format
  stage 8
  onlyIf (o.dosScheme && o.fs.isFat) (must calls.syslinux)
  must calls.mount
  copyTree o 74 calls
  stage 88
  stage 90
  must calls.unmount

def flowExtractDisk (o : CreateOpts) (calls : ExtractDiskCalls) : Step Unit := do
  must calls.sizeGuard
  if o.dryRun then must calls.target
  else do
    must calls.partition
    stage 4
    must calls.node
    onlyIf (!o.quickFormat) (zeroHead 4 2 calls.zero)
    if o.fs = .ext || o.fs = .ntfs then stagedTree o calls else mountedTree o calls
    must calls.mbr
    stage 100

structure FormatCalls where
  target : Bool
  partition : Bool
  node : Bool
  zero : Zeroed
  format : Bool
  syslinux : Bool
  mbr : Bool

def flowFormat (o : CreateOpts) (destination : Destination) (calls : FormatCalls) : Step Unit :=
  if o.dryRun then must calls.target
  else if destination = .disk then do
    must calls.partition
    stage 30
    must calls.node
    onlyIf (!o.quickFormat) (zeroHead 30 10 calls.zero)
    must calls.format
    stage 85
    onlyIf (o.dosScheme && (o.fs.isFat || o.fs = .ext)) (must calls.syslinux)
    must calls.mbr
    stage 100
  else do
    must calls.format
    stage 100

structure DosCalls where
  target : Bool
  payload : Bool
  partition : Bool
  node : Bool
  format : Bool
  mount : Bool
  copyFiles : Bool
  unmount : Bool
  bootRecords : Bool

def flowDos (o : CreateOpts) (calls : DosCalls) : Step Unit :=
  if o.dryRun then must calls.target
  else do
    must calls.payload
    must calls.partition
    stage 10
    must calls.node
    must calls.format
    stage 20
    must calls.mount
    must calls.copyFiles
    stage 70
    must (calls.unmount && calls.bootRecords)
    stage 100

structure WindowsCalls where
  target : Bool
  check : Bool
  partition : Bool
  node : Bool
  secondNode : Bool
  uefiNtfs : Bool
  zero : Zeroed
  wipe : Bool
  format : Bool
  mount : Bool
  extract : Called
  customize : Bool
  verifyTree : Bool
  unmount : Bool
  scratch : Bool
  /-- The install image was found in the archive. -/
  entry : Bool
  populate : Called
  /-- The install image written from the mounted ISO, where that can be tried. -/
  direct : Option Called
  imageScratch : Bool
  copyOut : Called
  copied : Bool
  writeCopy : Called

def fatTree (o : CreateOpts) (calls : WindowsCalls) : Step Unit := do
  must calls.mount
  within 10 70 calls.extract
  onlyIf o.wue (must calls.customize)
  stage 88
  must calls.verifyTree
  stage 90
  must calls.unmount

/-- The tree staged without the install image and copied onto NTFS. -/
def stagedTreeBare (o : CreateOpts) (calls : WindowsCalls) : Step Unit := do
  within 10 22 calls.extract
  onlyIf o.wue (must calls.customize)
  must calls.verifyTree
  within 35 15 calls.populate

/-- The install image from a scratch copy. -/
def writeScratchCopy (calls : WindowsCalls) : Step Unit := do
  must calls.imageScratch
  within 50 19 calls.copyOut
  must calls.copied
  within 69 19 calls.writeCopy

/-- The install image, straight from the mounted ISO or else from a scratch copy. -/
def writeInstallImage (calls : WindowsCalls) : Step Unit :=
  match calls.direct with
  | none => writeScratchCopy calls
  | some direct => do
      let wrote ← attempt (within 50 38 direct)
      onlyIf (!wrote) (writeScratchCopy calls)

def streams (o : CreateOpts) (calls : WindowsCalls) : Bool := !o.splitWim && calls.entry

def wholeTree (o : CreateOpts) (calls : WindowsCalls) : Step Unit := do
  within 10 45 calls.extract
  onlyIf o.wue (must calls.customize)
  must calls.verifyTree
  within 58 30 calls.populate
  stage 90

/-- The partitions and the file system. -/
def layDown (o : CreateOpts) (calls : WindowsCalls) : Step Unit := do
  must calls.check
  must calls.partition
  stage 5
  must calls.node
  onlyIf (o.fs = .ntfs) (must (calls.secondNode && calls.uefiNtfs))
  onlyIf (!o.quickFormat) (zeroHead 5 3 calls.zero)
  must calls.wipe
  must calls.format
  stage 10

/-- Everything before the install image is written on its own. -/
def beforeInstallImage (o : CreateOpts) (calls : WindowsCalls) : Step Unit := do
  layDown o calls
  must calls.scratch
  stagedTreeBare o calls

def fillTree (o : CreateOpts) (calls : WindowsCalls) : Step Unit :=
  if o.fs = .fat32 then do
    layDown o calls
    fatTree o calls
  else if streams o calls then do
    beforeInstallImage o calls
    writeInstallImage calls
    stage 90
  else do
    layDown o calls
    must calls.scratch
    wholeTree o calls

def flowWindows (o : CreateOpts) (calls : WindowsCalls) : Step Unit := do
  must (o.fs = .fat32 || o.fs = .ntfs)
  if o.dryRun then must calls.target
  else do
    fillTree o calls
    stage 100

/-- A run: what every call that `rufux_create` may make meets. -/
structure Calls where
  bootDisk : Bool
  start : StartCalls
  source : Bool
  dd : DdCalls
  extractDir : ExtractDirCalls
  extractDisk : ExtractDiskCalls
  format : FormatCalls
  dos : DosCalls
  windows : WindowsCalls

def flow (o : CreateOpts) (calls : Calls) : Step Unit :=
  match o.mode with
  | .dd => flowDd o calls.dd
  | .extract =>
      if calls.start.destination = .directory then flowExtractDir o calls.extractDir
      else flowExtractDisk o calls.extractDisk
  | .format => flowFormat o calls.start.destination calls.format
  | .dos => flowDos o calls.dos
  | .windows => do
      must calls.source
      flowWindows o calls.windows
  | .unknown => must false

def rufuxCreate (o : CreateOpts) (calls : Calls) : Step Unit := do
  must (!calls.bootDisk)
  prepare o calls.start
  flow o calls

end Rufux.Create.Macos
