import Rufux.Library.Transfers

/-!
Raw image writing in both ports: the checks before a write, the loop that copies the source
chunk by chunk, the flush, and the pass that reads the target back.
-/

namespace Rufux.Imaging

open Library

/-- `CHUNK`. -/
def chunk : Nat := 2 ^ 20

/-- What one `fread` meets: all it asked for, the end of the file, or an error. -/
inductive Refill where
  | full
  | ended (count : Nat)
  | failed (count : Nat)

structure Stream where
  position : Nat
  ended : Bool
  failed : Bool
deriving DecidableEq

def fopened : Stream := ⟨0, false, false⟩

def Stream.fread (stream : Stream) (want : Nat) : Refill → Nat × Stream
  | .full => (want, { stream with position := stream.position + want })
  | .ended count =>
      let count' := min count want
      (count',
        { stream with position := stream.position + count', ended := decide (count < want) })
  | .failed count =>
      let count' := min count want
      (count',
        { stream with
          position := stream.position + count'
          failed := stream.failed || decide (count < want) })

/-- The sizes of the chunks that `read_capped` returns until it returns none. -/
def pull : List Refill → Stream → Nat → Option (List Nat × Stream)
  | [], stream, remaining =>
      if remaining = 0 ∨ stream.ended then some ([], stream) else none
  | refill :: rest, stream, remaining =>
      if remaining = 0 ∨ stream.ended then some ([], stream)
      else
        let (n, next) := stream.fread (min chunk remaining) refill
        if n = 0 then some ([], next)
        else (pull rest next (remaining - n)).map fun (sizes, last) => (n :: sizes, last)

/-- `while ((n = read_capped(..)) > 0)` around a body that may break with a failure. -/
def forChunks {S F : Type} (body : S → Nat → Nat → Option (Except F S)) :
    List Refill → Stream → Nat → S → Option (Except F (S × Stream))
  | [], stream, remaining, state =>
      if remaining = 0 ∨ stream.ended then some (.ok (state, stream)) else none
  | refill :: rest, stream, remaining, state =>
      if remaining = 0 ∨ stream.ended then some (.ok (state, stream))
      else
        let (n, next) := stream.fread (min chunk remaining) refill
        if n = 0 then some (.ok (state, next))
        else
          match body state stream.position n with
          | none => none
          | some (.error failure) => some (.error failure)
          | some (.ok state) => forChunks body rest next (remaining - n) state

/-- The target once it is open; `sector` is given for a device that takes whole sectors. -/
structure Sink where
  regular : Bool
  sector : Option Nat

def Sink.padded (sink : Sink) (n : Nat) : Nat :=
  match sink.sector with
  | none => n
  | some size => if n % size = 0 then n else n + (size - n % size)

/-- What the two ports do differently once the target is open. -/
structure Port where
  /-- A write of nothing ends the loop. -/
  stalls : Bool
  /-- The target is flushed even after a failure. -/
  flushesFailed : Bool
  /-- A read error of the source ends the verification with a failure. -/
  checksReread : Bool

structure Writing (W E : Type) where
  world : W
  position : Nat
  turns : List (Turn E)

structure Verifying (W E : Type) where
  world : W
  position : Nat
  turns : List (Turn E)
  answers : List (Answer W)

section Passes

variable {W E : Type} (port : Port) (file : Backing W E) (sink : Sink) (image : ByteMap)

def writeChunk (state : Writing W E) (done n : Nat) :
    Option (Except (String × W) (Writing W E)) :=
  let bytes := image.get done n ++ List.replicate (sink.padded n - n) 0
  match file.writeAll port.stalls state.position bytes state.turns state.world 0 with
  | none => none
  | some ⟨none, world, turns⟩ => some (.ok ⟨world, state.position + bytes.length, turns⟩)
  | some ⟨some (off, .failed why), world, _⟩ =>
      let place := done + off
      some (.error (s!"write failed at {place}: {why}", world))
  | some ⟨some (off, .stalled), world, _⟩ =>
      let place := done + off
      some (.error (s!"write stalled at {place}", world))

def verifyChunk (state : Verifying W E) (done n : Nat) :
    Option (Except (String × W × List (Answer W)) (Verifying W E)) :=
  match file.readFull state.position (sink.padded n) state.turns state.world [] with
  | none => none
  | some ⟨some why, answers, world, _⟩ =>
      some (.error (s!"verify: read error at offset {done}: {why}", world, state.answers ++ answers))
  | some ⟨none, answers, world, turns⟩ =>
      let got := gathered answers
      if got.length = sink.padded n ∧ got.take n = image.get done n then
        some (.ok ⟨world, state.position + got.length, turns, state.answers ++ answers⟩)
      else some (.error (s!"verify mismatch at offset {done}", world, state.answers ++ answers))

end Passes

structure Options where
  dryRun : Bool
  verify : Bool
  allowFixed : Bool
  allowFile : Bool
  yes : Bool
  srcLen : Nat

structure FileStat where
  regular : Bool
  size : Nat
  /-- Device and inode number. -/
  identity : Nat × Nat

/-- What is asked for and what the checks of both ports find. -/
structure Request where
  src : String
  dst : String
  options : Options
  source : Option FileStat
  target : Option FileStat
  /-- `rufux_check_target` on the target, with its two flags. -/
  checkTarget : Bool → Bool → Except String Unit
  /-- What opening the source fails with. -/
  fopenFails : Option String

/-- The checks before anything is read; they find how many bytes to write. -/
def checkRequest (request : Request) : Except String Nat :=
  let src := request.src
  let dst := request.dst
  match request.source with
  | none => .error s!"source '{src}' is not a readable file"
  | some stat =>
      if !stat.regular then .error s!"source '{src}' is not a readable file"
      else if stat.size < request.options.srcLen then .error "payload size exceeds file size"
      else
        let total := if 0 < request.options.srcLen then request.options.srcLen else stat.size
        if total = 0 then .error s!"source '{src}' is empty"
        else
          match request.checkTarget request.options.allowFixed request.options.allowFile with
          | .error why => .error why
          | .ok () =>
              if request.target.map FileStat.identity = some stat.identity then
                .error s!"source and target are the same file ('{dst}')"
              else
                match request.fopenFails with
                | some why => .error s!"cannot open source '{src}': {why}"
                | none => .ok total

/-- One course of a run: what every call meets, in order. -/
structure Script (E : Type) where
  refills : List Refill
  turns : List (Turn E)
  /-- What the flush fails with. -/
  flushed : Option String
  /-- What happens between the flush and the first read. -/
  settled : List E
  reopens : Bool
  rereads : List Refill
  returns : List (Turn E)

structure Outcome (W : Type) where
  error : Option String
  world : W
  answers : List (Answer W)

section Run

variable {W E : Type} (port : Port) (file : Backing W E) (request : Request)

/-- Reading the target back; `world` is the target as it is then. -/
def verifyPhase (sink : Sink) (total : Nat) (image : ByteMap) (script : Script E) (world : W) :
    Option (Outcome W) :=
  let src := request.src
  if !script.reopens then some ⟨some "verify: cannot reopen src/dst", world, []⟩
  else
    match forChunks (verifyChunk file sink image) script.rereads fopened total
        ⟨world, 0, script.returns, []⟩ with
    | none => none
    | some (.error (why, world, answers)) => some ⟨some why, world, answers⟩
    | some (.ok (state, stream)) =>
        if port.checksReread && stream.failed then
          some ⟨some s!"verify: read error on '{src}'", state.world, state.answers⟩
        else some ⟨none, state.world, state.answers⟩

def flushPhase (script : Script E) (error : Option String) (world : W) : Option String × W :=
  if error.isNone || port.flushesFailed then
    match script.flushed with
    | none => (error, file.flush world)
    | some why => (some s!"fsync failed: {why}", world)
  else (error, world)

/-- Writing to the open target, flushing it, and reading it back if that is asked for. -/
def writePhase (sink : Sink) (total : Nat) (image : ByteMap) (script : Script E) (world : W) :
    Option (Outcome W) :=
  let src := request.src
  match forChunks (writeChunk port file sink image) script.refills fopened total
      ⟨world, 0, script.turns⟩ with
  | none => none
  | some (.error (why, world)) =>
      let (error, world) := flushPhase port file script (some why) world
      some ⟨error, world, []⟩
  | some (.ok (state, stream)) =>
      let failed := if stream.failed then some s!"read error on '{src}'" else none
      let (error, world) := flushPhase port file script failed state.world
      if error.isSome || !request.options.verify then some ⟨error, world, []⟩
      else
        verifyPhase port file request sink total image script
          (script.settled.foldl file.happen world)

/-- `rufux_write_image` of either port, given how the port opens its target. Nothing comes
back of a run that is still going on. -/
def writeImage (openTarget : Nat → Except String Sink) (image : ByteMap) (script : Script E)
    (world : W) : Option (Outcome W) :=
  let src := request.src
  match checkRequest request with
  | .error why => some ⟨some why, world, []⟩
  | .ok total =>
      if request.options.dryRun then
        match pull script.refills fopened total with
        | none => none
        | some (_, stream) =>
            some ⟨if stream.failed then some s!"read error on '{src}'" else none, world, []⟩
      else if !request.options.yes then
        some ⟨some "refusing real write without --yes (use --dry-run to simulate)", world, []⟩
      else
        match openTarget total with
        | .error why => some ⟨some why, world, []⟩
        | .ok sink =>
            writePhase port file request sink total image script
              (if sink.regular then file.truncate world else world)

end Run

/-- What the Linux port finds when it opens its target. -/
structure LinuxNode where
  /-- What `open` fails with. -/
  openFails : Option String
  locked : Bool
  /-- `BLKGETSIZE64`. -/
  capacity : Option Nat

def linuxPort : Port where
  stalls := false
  flushesFailed := true
  checksReread := false

def LinuxNode.openTarget (node : LinuxNode) (request : Request) (total : Nat) :
    Except String Sink :=
  let dst := request.dst
  let regular := (request.target.map FileStat.regular).getD false
  match node.openFails with
  | some why => .error s!"cannot open target '{dst}': {why} (need sudo?)"
  | none =>
      if regular then .ok ⟨true, none⟩
      else if node.locked then .error s!"target '{dst}' is busy/locked"
      else
        match node.capacity with
        | none => .ok ⟨false, none⟩
        | some cap =>
            if cap < total then .error s!"image ({total} B) larger than target ({cap} B)"
            else .ok ⟨false, none⟩

def Linux.rufuxWriteImage {W E : Type} (file : Backing W E) (request : Request)
    (node : LinuxNode) : ByteMap → Script E → W → Option (Outcome W) :=
  writeImage linuxPort file request (node.openTarget request)

/-- What the macOS port finds when it opens its target. -/
structure MacosNode where
  /-- What unmounting the disk fails with. -/
  unmount : Option String
  openFails : Option String
  /-- The lock is held by somebody else. -/
  locked : Bool
  /-- `rufux_macos_dev_bytes`, zero when unknown. -/
  bytes : Nat
  character : Bool
  /-- `rufux_macos_sector_size`. -/
  sectorSize : Nat

def macosPort : Port where
  stalls := true
  flushesFailed := false
  checksReread := true

/-- `rufux_macos_raw_node`. -/
def rufuxMacosRawNode (dev : String) : String :=
  if "/dev/disk".toList <+: dev.toList ∧ (dev.toList.getD 9 ' ').isDigit then
    String.ofList ("/dev/rdisk".toList ++ dev.toList.drop 9)
  else dev

def MacosNode.openTarget (node : MacosNode) (request : Request) (total : Nat) :
    Except String Sink :=
  let dst := request.dst
  let raw := rufuxMacosRawNode request.dst
  match request.target with
  | none => .error s!"target '{dst}' does not exist"
  | some stat =>
      if stat.regular then
        match node.openFails with
        | some why => .error s!"cannot open target '{dst}': {why} (need sudo?)"
        | none => .ok ⟨true, none⟩
      else
        match node.unmount with
        | some why => .error why
        | none =>
            match node.openFails with
            | some why => .error s!"cannot open target '{raw}': {why} (need sudo?)"
            | none =>
                if node.locked then .error s!"target '{dst}' is busy/locked"
                else if 0 < node.bytes ∧ node.bytes < total then
                  let cap := node.bytes
                  .error s!"image ({total} B) larger than target ({cap} B)"
                else
                  .ok ⟨false, if node.character then some (max 512 node.sectorSize) else none⟩

def Macos.rufuxWriteImage {W E : Type} (file : Backing W E) (request : Request)
    (node : MacosNode) : ByteMap → Script E → W → Option (Outcome W) :=
  writeImage macosPort file request (node.openTarget request)

/-- A port together with what it finds when it opens its target. -/
inductive Node where
  | linux (node : LinuxNode)
  | macos (node : MacosNode)

def Node.port : Node → Port
  | .linux _ => linuxPort
  | .macos _ => macosPort

def Node.openTarget (request : Request) : Node → Nat → Except String Sink
  | .linux node => node.openTarget request
  | .macos node => node.openTarget request

def rufuxWriteImage {W E : Type} (file : Backing W E) (request : Request) :
    Node → ByteMap → Script E → W → Option (Outcome W)
  | .linux node => Linux.rufuxWriteImage file request node
  | .macos node => Macos.rufuxWriteImage file request node

end Rufux.Imaging
