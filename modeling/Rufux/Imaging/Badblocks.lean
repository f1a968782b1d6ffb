import Rufux.Imaging.Writer

/-!
The destructive bad-block test: each pass fills the target with one pattern, flushes it and
reads it back, counting the regions that do not hold the pattern.
-/

namespace Rufux.Imaging

open Library

/-- What the calls of one pass meet. -/
structure PassScript (E : Type) where
  seeks : Bool
  writes : List (Turn E)
  /-- The error text in force when a write moves nothing. -/
  stale : String
  synced : Bool
  rewinds : Bool
  reads : List (Turn E)

/-- One pass as it went: the target when its pattern had been flushed, and what was read. -/
structure Pass (W : Type) where
  pattern : UInt8
  world : W
  answers : List (Answer W)

structure Scan (W : Type) where
  error : Option String
  bad : Nat
  world : W
  passes : List (Pass W)

def patterns : List UInt8 := [0xAA, 0x55, 0xFF, 0x00]

section Passes

variable {W E : Type} (file : Backing W E) (total : Nat)

/-- The write phase of a pass: how it failed, if it did, and the target then. -/
def fillPass (pattern : UInt8) (stale : String) :
    List (Turn E) → W → Nat → Option (Option String × W)
  | [], world, off => if total ≤ off then some (none, world) else none
  | turn :: rest, world, off =>
      if total ≤ off then some (none, world)
      else
        match turn with
        | .happened event => fillPass pattern stale rest (file.happen world event) off
        | .interrupted => fillPass pattern stale rest world off
        | .failed why => some (some why, world)
        | .moved count =>
            let count := min count (min chunk (total - off))
            if count = 0 then some (some stale, world)
            else
              fillPass pattern stale rest
                (file.write world off (List.replicate count pattern)) (off + count)

/-- The verify phase of a pass: the bad regions so far, the target and the reads. -/
def scanPass (pattern : UInt8) :
    List (Turn E) → W → Nat → List (Answer W) → Option (Nat × W × List (Answer W))
  | [], world, bad, answers =>
      if total ≤ (gathered answers).length then some (bad, world, answers) else none
  | turn :: rest, world, bad, answers =>
      let done := (gathered answers).length
      if total ≤ done then some (bad, world, answers)
      else
        match turn with
        | .happened event => scanPass pattern rest (file.happen world event) bad answers
        | .interrupted => scanPass pattern rest world bad answers
        | .failed _ => some (bad + 1, world, answers)
        | .moved count =>
            let bytes := file.read world done (min count (min chunk (total - done)))
            if bytes = [] then some (bad + 1, world, answers)
            else
              scanPass pattern rest world
                (if ∀ byte ∈ bytes, byte = pattern then bad else bad + 1)
                (answers ++ [⟨world, done, bytes⟩])

def runPasses (first : Nat) (scripts : Nat → PassScript E) :
    Nat → Nat → W → Nat → List (Pass W) → Option (Scan W)
  | 0, _, world, bad, passes => some ⟨none, bad, world, passes⟩
  | left + 1, p, world, bad, passes =>
      let script := scripts p
      let pattern := patterns.getD ((first + p) % 4) 0
      if !script.seeks then some ⟨some "seek failed", bad, world, passes⟩
      else
        match fillPass file total pattern script.stale script.writes world 0 with
        | none => none
        | some (some why, world) =>
            let number := p + 1
            some ⟨some s!"write failed at pass {number}: {why}", bad, world, passes⟩
        | some (none, world) =>
            if !script.synced then some ⟨some "fsync failed", bad, world, passes⟩
            else
              let flushed := file.flush world
              if !script.rewinds then some ⟨some "seek failed", bad, flushed, passes⟩
              else
                match scanPass file total pattern script.reads flushed bad [] with
                | none => none
                | some (bad, world, answers) =>
                    runPasses first scripts left (p + 1) world bad
                      (passes ++ [⟨pattern, flushed, answers⟩])

end Passes

/-- The target of a scan as the checks find it. -/
structure ScanTarget where
  path : String
  checkTarget : Bool → Bool → Except String Unit
  stat : Option FileStat
  openFails : Option String
  /-- `BLKGETSIZE64`. -/
  capacity : Option Nat

def ScanTarget.total (target : ScanTarget) : Option Nat :=
  match target.stat with
  | some ⟨true, size, _⟩ => some size
  | _ => if target.capacity = some 0 then none else target.capacity

/-- `rufux_badblocks_write` of the Linux port. -/
def Linux.rufuxBadblocksWrite {W E : Type} (file : Backing W E) (target : ScanTarget)
    (allowFile : Bool) (passes : Int) (first : Nat) (scripts : Nat → PassScript E) (world : W) :
    Option (Scan W) :=
  let path := target.path
  match target.checkTarget true allowFile with
  | .error why => some ⟨some why, 0, world, []⟩
  | .ok () =>
      match target.openFails with
      | some why => some ⟨some s!"cannot open '{path}': {why}", 0, world, []⟩
      | none =>
          match target.total with
          | none => some ⟨some s!"cannot size '{path}'", 0, world, []⟩
          | some total =>
              if total = 0 then some ⟨some s!"target '{path}' is empty", 0, world, []⟩
              else
                runPasses file total first scripts (max 1 (min passes 4)).toNat 0 world 0 []

section Macos

variable {W E : Type} (file : Backing W E)

/-- How much of what is wanted at a position a device of so many bytes can take. -/
def room (limit : Option Nat) (position wanted : Nat) : Nat :=
  match limit with
  | none => wanted
  | some size => min wanted (size - position)

/-- The inner loop of the write phase, which writes one chunk. -/
def Macos.fillChunk (limit : Option Nat) (pattern : UInt8) (stale : String) (start ioLen : Nat) :
    List (Turn E) → W → Nat → Option (Option String × W × List (Turn E))
  | [], world, off => if ioLen ≤ off then some (none, world, []) else none
  | turn :: rest, world, off =>
      if ioLen ≤ off then some (none, world, turn :: rest)
      else
        match turn with
        | .happened event =>
            Macos.fillChunk limit pattern stale start ioLen rest (file.happen world event) off
        | .interrupted => Macos.fillChunk limit pattern stale start ioLen rest world off
        | .failed why => some (some why, world, rest)
        | .moved count =>
            let count := min count (room limit (start + off) (ioLen - off))
            if count = 0 then some (some stale, world, rest)
            else
              Macos.fillChunk limit pattern stale start ioLen rest
                (file.write world (start + off) (List.replicate count pattern)) (off + count)

theorem chunk_decreases {left : Nat} (more : left ≠ 0) : left - min chunk left < left := by
  have positive : 0 < chunk := by decide
  omega

/-- The write phase of a pass of the macOS port, chunk by chunk. -/
def Macos.fillPass (sink : Sink) (limit : Option Nat) (pattern : UInt8) (stale : String)
    (left start : Nat) (turns : List (Turn E)) (world : W) : Option (Option String × W) :=
  if left = 0 then some (none, world)
  else
    let want := min chunk left
    match Macos.fillChunk file limit pattern stale start (sink.padded want) turns world 0 with
    | none => none
    | some (some why, world, _) => some (some why, world)
    | some (none, world, turns) =>
        Macos.fillPass sink limit pattern stale (left - want) (start + sink.padded want) turns world
termination_by left
decreasing_by exact chunk_decreases (by assumption)

/-- The verify phase of a pass of the macOS port; of each chunk only what was wanted counts. -/
def Macos.scanPass (sink : Sink) (pattern : UInt8) (left start : Nat) (turns : List (Turn E))
    (world : W) (bad : Nat) (answers : List (Answer W)) : Option (Nat × W × List (Answer W)) :=
  if left = 0 then some (bad, world, answers)
  else
    let want := min chunk left
    match file.readFull start (sink.padded want) turns world [] with
    | none => none
    | some fetched =>
        let got := gathered fetched.answers
        if fetched.failed.isSome ∨ got.length < sink.padded want then
          some (bad + 1, fetched.world, answers ++ fetched.answers)
        else
          Macos.scanPass sink pattern (left - want) (start + sink.padded want) fetched.turns
            fetched.world (if ∀ byte ∈ got.take want, byte = pattern then bad else bad + 1)
            (answers ++ fetched.answers)
termination_by left
decreasing_by exact chunk_decreases (by assumption)

/-- The passes of a test with the two phases of a port. -/
def passesWith (fill : UInt8 → PassScript E → W → Option (Option String × W))
    (scan : UInt8 → PassScript E → W → Nat → Option (Nat × W × List (Answer W)))
    (first : Nat) (scripts : Nat → PassScript E) :
    Nat → Nat → W → Nat → List (Pass W) → Option (Scan W)
  | 0, _, world, bad, passes => some ⟨none, bad, world, passes⟩
  | left + 1, p, world, bad, passes =>
      let script := scripts p
      let pattern := patterns.getD ((first + p) % 4) 0
      if !script.seeks then some ⟨some "seek failed", bad, world, passes⟩
      else
        match fill pattern script world with
        | none => none
        | some (some why, world) =>
            let number := p + 1
            some ⟨some s!"write failed at pass {number}: {why}", bad, world, passes⟩
        | some (none, world) =>
            if !script.synced then some ⟨some "fsync failed", bad, world, passes⟩
            else
              let flushed := file.flush world
              if !script.rewinds then some ⟨some "seek failed", bad, flushed, passes⟩
              else
                match scan pattern script flushed bad with
                | none => none
                | some (bad, world, answers) =>
                    passesWith fill scan first scripts left (p + 1) world bad
                      (passes ++ [⟨pattern, flushed, answers⟩])

/-- The target of a scan as the checks of the macOS port find it. -/
structure Macos.ScanTarget where
  path : String
  checkTarget : Bool → Bool → Except String Unit
  stat : Except String FileStat
  unmountDisk : Except String Unit
  /-- `rufux_macos_dev_bytes`. -/
  devBytes : String → Nat
  openFails : String → Option String
  /-- The opened node is a character device. -/
  character : Bool
  /-- `rufux_macos_sector_size`. -/
  sectorSize : String → Nat

/-- What the checks of the macOS port come to: whether the target is a regular file, how it is
written, and how large it is. -/
def Macos.ScanTarget.openTarget (target : Macos.ScanTarget) (allowFile : Bool) :
    Except String (Sink × Nat) :=
  let path := target.path
  match target.checkTarget true allowFile with
  | .error why => .error why
  | .ok () =>
      match target.stat with
      | .error why => .error s!"cannot stat '{path}': {why}"
      | .ok stat =>
          match (if stat.regular then .ok () else target.unmountDisk) with
          | .error why => .error why
          | .ok () =>
              let ioPath := if stat.regular then path else rufuxMacosRawNode path
              let total := target.devBytes ioPath
              if total = 0 then
                .error (if stat.regular then s!"target '{path}' is empty"
                  else s!"cannot size '{path}'")
              else
                match target.openFails ioPath with
                | some why => .error s!"cannot open '{ioPath}': {why}"
                | none =>
                    let raw := !stat.regular && target.character
                    .ok ({ regular := stat.regular
                           sector := if raw then some (max 512 (target.sectorSize ioPath)) else none },
                      total)

/-- A device ends where its size says; a regular file grows. -/
def Sink.limit (sink : Sink) (total : Nat) : Option Nat :=
  if sink.regular then none else some total

/-- `rufux_badblocks_write` of the macOS port. -/
def Macos.rufuxBadblocksWrite (target : Macos.ScanTarget) (allowFile : Bool) (passes first : Int)
    (scripts : Nat → PassScript E) (world : W) : Option (Scan W) :=
  let firstIdx := ((first.tmod 4 + 4).tmod 4).toNat
  match target.openTarget allowFile with
  | .error why => some ⟨some why, 0, world, []⟩
  | .ok (sink, total) =>
      passesWith file
        (fun pattern script world =>
          Macos.fillPass file sink (sink.limit total) pattern script.stale total 0 script.writes
            world)
        (fun pattern script world bad =>
          Macos.scanPass file sink pattern total 0 script.reads world bad [])
        firstIdx scripts (max 1 (min passes 4)).toNat 0 world 0 []

end Macos

end Rufux.Imaging
