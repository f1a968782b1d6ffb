import Rufux.Cli.Options
import Rufux.Create.Effects.LinuxSafety

/-!
The commands of the program: how each reads its options, and the calls it makes with them.
-/

namespace Rufux.Cli

open Library Block Linux Create.Effects Create.Effects.Linux

/-- The options that a command knows, alone or with a value, and what each sets. -/
structure Parser (O : Type) where
  flags : List (Arg × (O → O))
  values : List (Arg × (Arg → O → O))

/-- What an argument is taken for. -/
inductive Item where
  | flag (option : Arg)
  | value (option value : Arg)
  | word (arg : Arg)
  deriving DecidableEq

namespace Parser

variable {O : Type} (p : Parser O)

/-- The loop of a command over its options. What it does not know it passes over. -/
def read : List Arg → O → O
  | [], o => o
  | arg :: rest, o =>
      match p.flags.lookup arg with
      | some set => read rest (set o)
      | none =>
          match p.values.lookup arg with
          | some set =>
              match rest with
              | value :: rest => read rest (set value o)
              | [] => o
          | none => read rest o

def items : List Arg → List Item
  | [] => []
  | arg :: rest =>
      if (p.flags.lookup arg).isSome then .flag arg :: items rest
      else if (p.values.lookup arg).isSome then
        match rest with
        | value :: rest => .value arg value :: items rest
        | [] => [.word arg]
      else .word arg :: items rest

end Parser

section Numbers

def isSpace (byte : UInt8) : Bool := byte = 32 || (9 ≤ byte && byte ≤ 13)

def digits (arg : Arg) : Nat :=
  (arg.takeWhile fun byte => 48 ≤ byte && byte ≤ 57).foldl
    (fun number byte => number * 10 + (byte.toNat - 48)) 0

/-- `strtol` in base ten, held to a 64-bit `long`. -/
def strtol (arg : Arg) : Int :=
  match arg.dropWhile isSpace with
  | 45 :: rest => max (-digits rest) (-2 ^ 63)
  | 43 :: rest => min (digits rest) (2 ^ 63 - 1)
  | rest => min (digits rest) (2 ^ 63 - 1)

/-- `atoi` is `strtol` cut to an `int`. -/
def atoi (arg : Arg) : Int := (strtol arg).bmod (2 ^ 32)

/-- `strtoul` in base ten. A sign is taken as in C: the negative wraps around. -/
def strtoul (arg : Arg) : Nat :=
  match arg.dropWhile isSpace with
  | 45 :: rest => if 2 ^ 64 ≤ digits rest then 2 ^ 64 - 1 else (2 ^ 64 - digits rest) % 2 ^ 64
  | 43 :: rest => min (digits rest) (2 ^ 64 - 1)
  | rest => min (digits rest) (2 ^ 64 - 1)

end Numbers

/-- An argument as a text of as many bytes. The texts of the program are ASCII, so what other bytes
are does not matter. -/
def text (arg : Arg) : String :=
  String.ofList (arg.map fun byte => if byte < 128 then Char.ofNat byte.toNat else Char.ofNat 1)

section Parsers

structure ListOpts where
  json : Bool
  allow : Bool

def listParser : Parser ListOpts where
  flags :=
    [(ascii "--json", fun o => { o with json := true }),
      (ascii "--allow-fixed", fun o => { o with allow := true })]
  values := []

def probeParser : Parser Bool where
  flags := [(ascii "--detail", fun _ => true)]
  values := []

def checksumParser : Parser Arg where
  flags := []
  values := [(ascii "--algo", fun value _ => value)]

def writeParser : Parser WriteOpts where
  flags :=
    [(ascii "--dry-run", fun o => { o with dryRun := true }),
      (ascii "--real", fun o => { o with dryRun := false }),
      (ascii "--verify", fun o => { o with verify := true }),
      (ascii "--allow-fixed", fun o => { o with allowFixed := true }),
      (ascii "--allow-file", fun o => { o with allowFile := true }),
      (ascii "--yes", fun o => { o with yes := true })]
  values := []

def writeDefaults : WriteOpts where
  dryRun := true
  verify := false
  allowFixed := false
  allowFile := false
  yes := false

-- the file system of the main partition only decides its type code
def partitionParser : Parser PartOpts where
  flags :=
    [(ascii "--bios-boot", fun o => { o with biosBoot := true }),
      (ascii "--dry-run", fun o => { o with dryRun := true }),
      (ascii "--real", fun o => { o with dryRun := false }),
      (ascii "--allow-file", fun o => { o with allowFile := true }),
      (ascii "--allow-fixed", fun o => { o with allowFixed := true }),
      (ascii "--yes", fun o => { o with yes := true })]
  values :=
    [(ascii "--scheme", fun value o => { o with scheme := text value }),
      (ascii "--layout", fun value o => { o with layout := text value }),
      (ascii "--fs", fun _ o => o)]

def partitionDefaults : PartOpts where
  scheme := "gpt"
  layout := "single"
  biosBoot := false
  dryRun := true
  allowFixed := false
  allowFile := false
  yes := false

def formatParser : Parser MkfsOpts where
  flags :=
    [(ascii "--dry-run", fun o => { o with dryRun := true }),
      (ascii "--real", fun o => { o with dryRun := false }),
      (ascii "--allow-file", fun o => { o with allowFile := true }),
      (ascii "--allow-fixed", fun o => { o with allowFixed := true }),
      (ascii "--yes", fun o => { o with yes := true })]
  values :=
    [(ascii "--fs", fun value o => { o with fs := text value }),
      (ascii "--label", fun value o => { o with label := some (text value) })]

def formatDefaults : MkfsOpts where
  fs := "vfat"
  label := none
  dryRun := true
  allowFixed := false
  allowFile := false
  yes := false

/-- The only option of `extract`, `mount` and `umount`. -/
def dryParser : Parser Bool where
  flags := [(ascii "--dry-run", fun _ => true)]
  values := []

def installBootParser : Parser BootOpts where
  flags :=
    [(ascii "--dry-run", fun o => { o with dryRun := true }),
      (ascii "--real", fun o => { o with dryRun := false }),
      (ascii "--allow-file", fun o => { o with allowFile := true }),
      (ascii "--allow-fixed", fun o => { o with allowFixed := true }),
      (ascii "--yes", fun o => { o with yes := true })]
  values := [(ascii "--mbr", fun value o => { o with kind := text value })]

def installBootDefaults : BootOpts where
  kind := "bios"
  dryRun := true
  allowFixed := false
  allowFile := false
  yes := false

structure PersistOpts where
  mb : Nat
  label : Arg
  dry : Bool

def persistParser : Parser PersistOpts where
  flags := [(ascii "--dry-run", fun o => { o with dry := true })]
  values :=
    [(ascii "--size", fun value o => { o with mb := strtoul value }),
      (ascii "--label", fun value o => { o with label := value })]

def persistDefaults : PersistOpts where
  mb := 0
  label := ascii "casper-rw"
  dry := false

structure BadblocksOpts where
  allowFile : Bool
  wpasses : Int
  yes : Bool

def badblocksParser : Parser BadblocksOpts where
  flags :=
    [(ascii "--allow-file", fun o => { o with allowFile := true }),
      (ascii "--yes", fun o => { o with yes := true })]
  values := [(ascii "--write-patterns", fun value o => { o with wpasses := atoi value })]

def badblocksDefaults : BadblocksOpts where
  allowFile := false
  wpasses := 0
  yes := false

structure DownloadOpts where
  ver : Arg
  edition : Int
  lang : Option Arg
  arch : Option Arg
  outdir : Arg
  list : Bool
  listLangs : Bool
  urlOnly : Bool

def downloadParser : Parser DownloadOpts where
  flags :=
    [(ascii "--list", fun o => { o with list := true }),
      (ascii "--list-langs", fun o => { o with listLangs := true }),
      (ascii "--url-only", fun o => { o with urlOnly := true })]
  values :=
    [(ascii "--version", fun value o => { o with ver := value }),
      (ascii "--edition", fun value o => { o with edition := atoi value }),
      (ascii "--lang", fun value o => { o with lang := some value }),
      (ascii "--arch", fun value o => { o with arch := some value }),
      (ascii "--out", fun value o => { o with outdir := value })]

/-- The options of `create`, and whether a file system was named. -/
structure CreateArgs where
  opts : CreateOpts
  fsGiven : Bool

-- the cluster size, the validation of loaders and the regional settings change no call
def createParser : Parser CreateArgs where
  flags :=
    [(ascii "--dry-run", fun a => { a with opts.dryRun := true }),
      (ascii "--real", fun a => { a with opts.dryRun := false }),
      (ascii "--allow-file", fun a => { a with opts.allowFile := true }),
      (ascii "--allow-fixed", fun a => { a with opts.allowFixed := true }),
      (ascii "--yes", fun a => { a with opts.yes := true }),
      (ascii "--verify", fun a => { a with opts.verify := true }),
      (ascii "--quick", fun a => { a with opts.quickFormat := true }),
      (ascii "--full", fun a => { a with opts.quickFormat := false }),
      (ascii "--no-autorun", fun a => { a with opts.extendedLabel := false }),
      (ascii "--uefi-validate", fun a => a),
      (ascii "--ignore-smart", fun a => { a with opts.ignoreSmart := true })]
  values :=
    [(ascii "--mode", fun value a => { a with opts.mode := text value }),
      (ascii "--scheme", fun value a => { a with opts.scheme := text value }),
      (ascii "--fs", fun value a => { a with opts.fs := text value, fsGiven := true }),
      (ascii "--label", fun value a => { a with opts.label := some (text value) }),
      (ascii "--persist-mb", fun value a => { a with opts.persistMb := strtoul value }),
      (ascii "--cluster-sectors", fun _ a => a),
      (ascii "--badblock-passes",
        fun value a => { a with opts.badblockPasses := (atoi value).toNat }),
      (ascii "--wue", fun value a => { a with opts.wue := some (text value) }),
      (ascii "--split-wim",
        fun value a => { a with opts.splitWimMb := (atoi value % 2 ^ 32).toNat }),
      (ascii "--locale", fun _ a => a),
      (ascii "--keyboard", fun _ a => a),
      (ascii "--timezone", fun _ a => a)]

/-- `rufux_create_defaults`. -/
def createDefaults : CreateArgs where
  opts :=
    { mode := "dd"
      scheme := "gpt"
      fs := "vfat"
      label := some "RUFUX"
      wue := none
      splitWimMb := 0
      persistMb := 0
      quickFormat := true
      extendedLabel := true
      badblockPasses := 0
      verify := false
      ignoreSmart := false
      dryRun := true
      allowFixed := false
      allowFile := false
      yes := false }
  fsGiven := false

end Parsers

section Calls

/-- The image is written, expanded by the converter when it is a virtual disk. -/
def write (o : WriteOpts) : Proc Unit := do
  onlyIf (!o.dryRun) do
    must (← call .needRoot)
  let failed ← call .detectFailed
  must (!failed)
  let vdisk ← call .isVdisk
  if vdisk then rufuxVdiskWrite o
  else do
    must (← call .vhdAdjust)
    rufuxWriteImage o

def partition (o : PartOpts) : Proc Unit := do
  onlyIf (!o.dryRun) do
    must (← call .needRoot)
  rufuxPartition .disk o

def format (o : MkfsOpts) : Proc Unit := do
  onlyIf (!o.dryRun) do
    must (← call .needRoot)
  rufuxFormat .disk o

def extract (dry : Bool) : Proc Unit :=
  if dry then do
    must (← call .canExtract)
  else do
    must (← call (.extract false))

def installBoot (o : BootOpts) : Proc Unit := do
  onlyIf (!o.dryRun) do
    must (← call .needRoot)
  rufuxInstallMbr .disk o

def persist (o : PersistOpts) : Proc Unit :=
  if o.dry then do
    must (0 < o.mb && o.mb ≤ 16384)
    must (← call .isDir)
  else do
    must (← call (.persist false))

def patternsFrom : Nat → Nat → Proc Unit
  | _, 0 => pure ()
  | pass, left + 1 => do
      must (← call (.pattern pass))
      patternsFrom (pass + 1) left

/-- The destructive test, four patterns at most, or the scan that only reads. -/
def badblocks (o : BadblocksOpts) : Proc Unit :=
  if 0 < o.wpasses then do
    must o.yes
    let block ← call .isBlock
    onlyIf block do
      must (← call .needRoot)
    must (← call (.checkTarget .disk true o.allowFile))
    must (← call .openScan)
    patternsFrom 0 (min o.wpasses.toNat 4)
  else do
    must (← call (.checkTarget .disk true o.allowFile))
    must (← call .readScan)

def mount (dry : Bool) : Proc Unit :=
  if dry then do
    must (← call (.have "udisksctl"))
  else do
    must (← call (.mount .disk))

def umount (dry : Bool) : Proc Unit :=
  if dry then do
    must (← call (.have "udisksctl"))
  else do
    must (← call (.unmount .disk))

/-- NTFS is what Windows media get unless a file system is named. -/
def createOpts (a : CreateArgs) : CreateOpts :=
  if a.opts.mode = "windows" ∧ !a.fsGiven then { a.opts with fs := "ntfs" } else a.opts

def create (src : Arg) (a : CreateArgs) : Proc Unit := do
  let o := createOpts a
  let source := decide (src ≠ ascii "none")
  must (!(o.mode = "dd" || o.mode = "extract" || o.mode = "windows") || source)
  rufuxCreate o source true

/-- The commands that can change something; the others only look, or download. -/
def command (cmd : Arg) (args : List Arg) : Proc Unit :=
  match args with
  | first :: second :: rest =>
      if cmd = ascii "write" then write (writeParser.read rest writeDefaults)
      else if cmd = ascii "extract" then extract (dryParser.read rest false)
      else if cmd = ascii "create" then create first (createParser.read rest createDefaults)
      else single cmd (second :: rest)
  | [_] => single cmd []
  | [] => pure ()
where
  single (cmd : Arg) (rest : List Arg) : Proc Unit :=
    if cmd = ascii "partition" then partition (partitionParser.read rest partitionDefaults)
    else if cmd = ascii "format" then format (formatParser.read rest formatDefaults)
    else if cmd = ascii "install-boot" then
      installBoot (installBootParser.read rest installBootDefaults)
    else if cmd = ascii "persist" then persist (persistParser.read rest persistDefaults)
    else if cmd = ascii "badblocks" then badblocks (badblocksParser.read rest badblocksDefaults)
    else if cmd = ascii "mount" then mount (dryParser.read rest false)
    else if cmd = ascii "umount" then umount (dryParser.read rest false)
    else pure ()

/-- What is run with these arguments, the name of the program left out. The window is opened
before the options are checked. -/
def main : List Arg → Proc Unit
  | [] => pure ()
  | cmd :: args =>
      if cmd = ascii "--gui" ∨ cmd = ascii "gui" then pure ()
      else do
        must (validateFlags cmd args).isNone
        command cmd args

end Calls

end Rufux.Cli
