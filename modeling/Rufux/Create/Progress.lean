import Rufux.Library.Reporting

/-!
The progress that the flows report: byte counts of a call mapped into the window of its stage,
and fixed milestones. Here are the parts that both ports share.
-/

namespace Rufux.Create

open Library

/-- One call of a progress callback. -/
structure Count where
  done : UInt64
  total : UInt64

/-- What a call that reports its progress reported, and whether it succeeded. -/
structure Called where
  counts : List Count
  ok : Bool

inductive Mode where
  | dd
  | extract
  | format
  | dos
  | windows
  | unknown
  deriving DecidableEq

inductive FileSystem where
  | fat32
  | fat16
  | ext
  | ntfs
  | other
  deriving DecidableEq

inductive Destination where
  | directory
  | disk
  | other
  deriving DecidableEq

/-- The options that the reports depend on, after the scheme has been settled. -/
structure CreateOpts where
  mode : Mode
  dosScheme : Bool
  fs : FileSystem
  wue : Bool
  splitWim : Bool
  persist : Bool
  quickFormat : Bool
  extendedLabel : Bool
  badblockPasses : Nat
  verify : Bool
  ignoreSmart : Bool
  dryRun : Bool
  yes : Bool
  passesInt : badblockPasses < 2 ^ 31

def FileSystem.isFat (fs : FileSystem) : Bool := fs = .fat32 || fs = .fat16

/-- Percentages of the whole operation, in the order they are reported. -/
abbrev Step := Reporting Nat

open Reporting

def Count.share (span : Nat) (count : Count) : Nat :=
  if count.total = 0 then 0
  else min span (span * count.done.toNat % 2 ^ 64 / count.total.toNat)

def mapped (base span : Nat) (count : Count) : Nat := min 100 (base + count.share span)

def stage (percent : Nat) : Step Unit := report (if percent ≤ 100 then [percent] else [])

/-- A call whose byte counts are mapped into a window. -/
def within (base span : Nat) (called : Called) : Step Unit := do
  report (called.counts.map (mapped base span))
  must called.ok

/-- The rounds of `zero_head` that were written, of sixteen. -/
structure Zeroed where
  rounds : Nat
  bound : rounds ≤ 16
  ok : Bool

def zeroHead (base span : Nat) (zeroed : Zeroed) : Step Unit :=
  within base span
    ⟨(List.range zeroed.rounds).map fun i => ⟨UInt64.ofNat (i + 1), 16⟩, zeroed.ok⟩

/-- A bad-block pass: what it reported on the way, the size of the target, whether it ran to its
end, and whether it found bad regions. -/
structure Scanned where
  counts : List Count
  size : UInt64
  ok : Bool
  bad : Bool

def Scanned.called (scanned : Scanned) : Called where
  counts := scanned.counts ++ if scanned.ok then [⟨2 * scanned.size, 2 * scanned.size⟩] else []
  ok := scanned.ok && !scanned.bad

/-- Where the window of a pass starts, in the arithmetic of `unsigned`. -/
def passBase (span passes i : Nat) : Nat := span * i % 2 ^ 32 / passes

/-- The passes from one on. A directory cannot be scanned. -/
def badblocksFrom (destination : Destination) (span passes : Nat) (scans : Nat → Scanned) :
    Nat → Nat → Step Unit
  | _, 0 => pure ()
  | i, left + 1 => do
      must (destination ≠ .directory)
      within (passBase span passes i) (span / passes) (scans i).called
      badblocksFrom destination span passes scans (i + 1) left

def runBadblocks (destination : Destination) (span passes : Nat) (scans : Nat → Scanned) :
    Step Unit :=
  badblocksFrom destination span passes scans 0 passes

/-- What the calls before the flow meet. -/
structure StartCalls where
  destination : Destination
  root : Bool
  unmounted : Bool
  smart : Bool
  scans : Nat → Scanned
  zero : Zeroed

def badblocksSpan (mode : Mode) : Nat := if mode = .dd then 10 else 8

/-- The checks of `rufux_create`, which report nothing. -/
def admission (o : CreateOpts) (calls : StartCalls) : Step Unit := do
  must (o.dryRun || o.yes)
  onlyIf (!o.dryRun && calls.destination = .disk) (must (calls.root && calls.unmounted))
  onlyIf (!o.dryRun && calls.destination = .disk) (must (calls.smart || o.ignoreSmart))

/-- `rufux_create` up to the flow. -/
def prepare (o : CreateOpts) (calls : StartCalls) : Step Unit := do
  admission o calls
  onlyIf (!o.dryRun)
    (runBadblocks calls.destination (badblocksSpan o.mode) o.badblockPasses calls.scans)
  onlyIf (!o.dryRun && !o.quickFormat && calls.destination = .disk && o.mode = .dd)
    (zeroHead 10 5 calls.zero)

inductive Detected where
  | failed
  | plain
  | vdisk
  deriving DecidableEq

structure DdCalls where
  detected : Detected
  vhdAdjust : Bool
  write : Called
  verify : Called
  vdiskReady : Bool
  convert : Called
  compare : Bool

/-- The counts of `cb(1, 1)`. -/
def once : Called := ⟨[⟨1, 1⟩], true⟩

def writeSpan (o : CreateOpts) : Nat := if o.verify then 70 else 85

def writeImage (o : CreateOpts) (calls : DdCalls) : Step Unit := do
  within 15 (writeSpan o) calls.write
  onlyIf (o.verify && !o.dryRun) (within 85 15 calls.verify)

def vdiskWrite (o : CreateOpts) (calls : DdCalls) : Step Unit := do
  must calls.vdiskReady
  if o.dryRun then within 15 (writeSpan o) once
  else do
    within 15 (writeSpan o) calls.convert
    onlyIf o.verify (do
      must calls.compare
      within 85 15 once)

def flowDd (o : CreateOpts) (calls : DdCalls) : Step Unit :=
  match calls.detected with
  | .failed => must false
  | .vdisk => do
      vdiskWrite o calls
      stage 100
  | .plain => do
      must calls.vhdAdjust
      writeImage o calls
      stage 100

structure ExtractDirCalls where
  sizeGuard : Bool
  extract : Called
  autorun : Bool
  persist : Bool

def flowExtractDir (o : CreateOpts) (calls : ExtractDirCalls) : Step Unit := do
  must calls.sizeGuard
  within 0 90 calls.extract
  onlyIf o.extendedLabel (must calls.autorun)
  onlyIf (o.persist && !o.dryRun) (must calls.persist)
  stage 100

end Rufux.Create
