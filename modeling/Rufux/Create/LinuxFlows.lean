import Rufux.Create.Progress

/-!
`rufux_create` on Linux, with the results of the calls it makes and what they report.
-/

namespace Rufux.Create.Linux

open Library Reporting

structure ExtractDiskCalls where
  sizeGuard : Bool
  partition : Bool
  node : Bool
  zero : Zeroed
  format : Bool
  syslinux : Bool
  mount : Bool
  extract : Called
  autorun : Bool
  persist : Bool
  unmount : Bool
  mbr : Bool

/-- Syslinux goes on FAT and ext when the scheme is DOS. -/
def chainloads (o : CreateOpts) : Bool := o.dosScheme && (o.fs.isFat || o.fs = .ext)

def flowExtractDisk (o : CreateOpts) (log : Bool) (calls : ExtractDiskCalls) : Step Unit := do
  must calls.sizeGuard
  if o.dryRun && log then pure ()
  else do
    must calls.partition
    stage 4
    must calls.node
    onlyIf (!o.quickFormat) (zeroHead 4 2 calls.zero)
    must calls.format
    stage 8
    onlyIf (chainloads o) (must calls.syslinux)
    must calls.mount
    let copied ← attempt (do
      within 8 74 calls.extract
      onlyIf o.extendedLabel (must calls.autorun)
      onlyIf o.persist (must calls.persist))
    -- the milestones are reported for a failed copy too
    stage 88
    stage 90
    must (copied && calls.unmount && calls.mbr)
    stage 100

structure FormatCalls where
  partition : Bool
  node : Bool
  zero : Zeroed
  format : Bool
  syslinux : Bool
  mbr : Bool

def flowFormat (o : CreateOpts) (destination : Destination) (calls : FormatCalls) : Step Unit :=
  if o.dryRun then pure ()
  else if destination = .disk then do
    must calls.partition
    stage 30
    must calls.node
    onlyIf (!o.quickFormat) (zeroHead 30 10 calls.zero)
    must calls.format
    stage 85
    onlyIf (chainloads o) (must calls.syslinux)
    must calls.mbr
    stage 100
  else do
    must calls.format
    stage 100

structure DosCalls where
  payload : Bool
  partition : Bool
  node : Bool
  format : Bool
  mount : Bool
  copyFiles : Bool
  unmount : Bool
  bootRecords : Bool

def flowDos (o : CreateOpts) (destination : Destination) (calls : DosCalls) : Step Unit :=
  if o.dryRun then pure ()
  else do
    must (destination = .disk && calls.payload)
    must calls.partition
    stage 10
    must calls.node
    must calls.format
    stage 20
    must calls.mount
    stage 70
    let ok := calls.copyFiles && calls.unmount && calls.bootRecords
    stage (if ok then 100 else 70)
    must ok

structure WindowsCalls where
  check : Bool
  secondNode : Bool
  partition : Bool
  node : Bool
  uefiNtfs : Bool
  zero : Zeroed
  wipe : Bool
  format : Bool
  mount : Bool
  extract : Called
  customize : Bool
  verifyTree : Bool
  unmount : Bool

def flowWindows (o : CreateOpts) (log : Bool) (calls : WindowsCalls) : Step Unit := do
  must (o.fs = .fat32 || o.fs = .ntfs)
  if o.dryRun && log then pure ()
  else do
    must calls.check
    onlyIf (o.fs = .ntfs) (must calls.secondNode)
    must calls.partition
    stage 5
    must calls.node
    onlyIf (o.fs = .ntfs) (must calls.uefiNtfs)
    onlyIf (!o.quickFormat) (zeroHead 5 3 calls.zero)
    must calls.wipe
    must calls.format
    stage 10
    must calls.mount
    let copied ← attempt (do
      within 10 70 calls.extract
      onlyIf o.wue (must calls.customize))
    stage 88
    stage 90
    must (copied && calls.verifyTree && calls.unmount)
    stage 100

/-- A run: what every call that `rufux_create` may make meets. -/
structure Calls where
  start : StartCalls
  log : Bool
  source : Bool
  dd : DdCalls
  extractDir : ExtractDirCalls
  extractDisk : ExtractDiskCalls
  format : FormatCalls
  dos : DosCalls
  windows : WindowsCalls

def flow (o : CreateOpts) (calls : Calls) : Step Unit :=
  match o.mode with
  | .dd => flowDd o calls.dd
  | .extract =>
      if calls.start.destination = .directory then flowExtractDir o calls.extractDir
      else flowExtractDisk o calls.log calls.extractDisk
  | .format => flowFormat o calls.start.destination calls.format
  | .dos => flowDos o calls.start.destination calls.dos
  | .windows => do
      must calls.source
      flowWindows o calls.log calls.windows
  | .unknown => must false

def rufuxCreate (o : CreateOpts) (calls : Calls) : Step Unit := do
  prepare o calls.start
  flow o calls

end Rufux.Create.Linux
