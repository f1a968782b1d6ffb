import Rufux.Library.Blocks

/-!
The options of `rufux_create` and of the steps it is made of, as both ports have them.
-/

namespace Rufux.Create.Effects

structure CreateOpts where
  mode : String
  scheme : String
  fs : String
  label : Option String
  wue : Option String
  splitWimMb : Nat
  persistMb : Nat
  quickFormat : Bool
  extendedLabel : Bool
  badblockPasses : Nat
  verify : Bool
  ignoreSmart : Bool
  dryRun : Bool
  allowFixed : Bool
  allowFile : Bool
  yes : Bool

structure PartOpts where
  scheme : String
  layout : String
  biosBoot : Bool
  dryRun : Bool
  allowFixed : Bool
  allowFile : Bool
  yes : Bool

structure MkfsOpts where
  fs : String
  label : Option String
  dryRun : Bool
  allowFixed : Bool
  allowFile : Bool
  yes : Bool

structure BootOpts where
  kind : String
  dryRun : Bool
  allowFixed : Bool
  allowFile : Bool
  yes : Bool

structure WriteOpts where
  dryRun : Bool
  verify : Bool
  allowFixed : Bool
  allowFile : Bool
  yes : Bool

/-- "mbr" is an alias of "dos", settled before any flow. -/
def CreateOpts.normalised (o : CreateOpts) : CreateOpts :=
  { o with scheme := if o.scheme = "mbr" then "dos" else o.scheme }

def fsIsFat16 (fs : String) : Bool := fs = "fat16"

def fsIsFat (fs : String) : Bool := fs = "vfat" || fs = "fat32" || fs = "fat16"

def fsIsExt (fs : String) : Bool := fs = "ext4" || fs = "ext2" || fs = "ext3"

/-- What the flows take for ext: any name that starts with it. -/
def startsExt (fs : String) : Bool := "ext".isPrefixOf fs

def labelMax (fs : String) : Nat :=
  if fsIsFat fs then 11 else if fs = "exfat" then 15 else if fsIsExt fs then 16 else 32

def labelFits (fs : String) (label : Option String) : Bool :=
  match label with
  | none => true
  | some label => label.utf8ByteSize ≤ labelMax fs

def CreateOpts.customizes (o : CreateOpts) : Bool :=
  match o.wue with
  | none => false
  | some wue => wue ≠ "none"

def CreateOpts.writeOpts (o : CreateOpts) : WriteOpts where
  dryRun := o.dryRun
  verify := o.verify
  allowFixed := o.allowFixed
  allowFile := o.allowFile
  yes := o.yes

end Rufux.Create.Effects
