import Rufux.Library.PageCache
import Rufux.Imaging.Exact
import Rufux.Imaging.Badblocks

/-!
What a verified write and a clean bad-block test say about the medium, when the kernel may
answer their reads from its page cache.
-/

namespace Rufux.Imaging

open Library

section Scans

variable {W E : Type} {file : Backing W E} {total : Nat} {pattern : UInt8}

/-- A scan that counted nothing has read the pattern everywhere. -/
theorem scanPass_spec (kept : W → Prop) {turns : List (Turn E)} {world world' : W} {bad : Nat}
    {answers answers' : List (Answer W)}
    (happens : ∀ world event, kept world → kept (file.happen world event))
    (ran : scanPass file total pattern turns world bad answers = some (0, world', answers'))
    (consecutive : file.Consecutive 0 answers)
    (few : (gathered answers).length ≤ total)
    (same : bad = 0 → ∀ byte ∈ gathered answers, byte = pattern)
    (before : kept world) (seen : ∀ answer ∈ answers, kept answer.world) :
    bad = 0 ∧ file.Consecutive 0 answers' ∧ (∀ answer ∈ answers', kept answer.world) ∧
      (gathered answers').length = total ∧ ∀ byte ∈ gathered answers', byte = pattern := by
  induction turns generalizing world bad answers with
  | nil =>
      unfold scanPass at ran
      split at ran
      · cases ran
        exact ⟨rfl, consecutive, seen, by omega, same rfl⟩
      · cases ran
  | cons turn rest ih =>
      unfold scanPass at ran
      dsimp only at ran
      split at ran
      · cases ran
        exact ⟨rfl, consecutive, seen, by omega, same rfl⟩
      · rename_i more
        cases turn with
        | happened event => exact ih ran consecutive few same (happens world event before) seen
        | interrupted => exact ih ran consecutive few same before seen
        | failed why => cases ran
        | moved count =>
            dsimp only at ran
            split at ran
            · cases ran
            · generalize read : file.read world (gathered answers).length
                (min count (min chunk (total - (gathered answers).length))) = bytes at ran
              have short := file.length_read world (gathered answers).length
                (min count (min chunk (total - (gathered answers).length)))
              rw [read] at short
              have grown : gathered (answers ++ [⟨world, (gathered answers).length, bytes⟩]) =
                  gathered answers ++ bytes := by
                rw [gathered_append, gathered_cons, gathered_nil, List.append_nil]
              have good := ih ran (consecutive_append.mpr ⟨consecutive, by rw [Nat.zero_add],
                  ⟨_, by rw [Nat.zero_add]; exact read.symm⟩, trivial⟩)
                (by rw [grown, List.length_append]; omega)
                (by
                  intro none byte member
                  rw [grown] at member
                  split at none
                  · rename_i right
                    rcases List.mem_append.mp member with member | member
                    · exact same none byte member
                    · exact right byte member
                  · cases none)
                before
                (by
                  intro answer member
                  rcases List.mem_append.mp member with member | member
                  · exact seen answer member
                  · rw [List.mem_singleton.mp member]
                    exact before)
              refine ⟨?_, good.2⟩
              have zero := good.1
              split at zero
              · exact zero
              · cases zero

/-- What holds of a pass whose scan counted nothing. -/
def CleanPass (file : Backing W E) (total : Nat) (kept : W → W → Prop) (pass : Pass W) : Prop :=
  (∃ world, pass.world = file.flush world) ∧ file.Consecutive 0 pass.answers ∧
    (∀ answer ∈ pass.answers, kept pass.world answer.world) ∧
    gathered pass.answers = List.replicate total pass.pattern

/-- A test that succeeds without bad regions has clean passes only. -/
theorem runPasses_clean (kept : W → W → Prop) {first left p bad : Nat}
    {scripts : Nat → PassScript E} {world : W} {passes : List (Pass W)} {scan : Scan W}
    (happens : ∀ start world event, kept start world → kept start (file.happen world event))
    (starts : ∀ world, kept (file.flush world) (file.flush world))
    (ran : runPasses file total first scripts left p world bad passes = some scan)
    (fine : scan.error = none) (zero : scan.bad = 0)
    (before : bad = 0 → ∀ pass ∈ passes, CleanPass file total kept pass) :
    bad = 0 ∧ scan.passes.length = passes.length + left ∧
      ∀ pass ∈ scan.passes, CleanPass file total kept pass := by
  induction left generalizing p world bad passes with
  | zero =>
      cases ran
      exact ⟨zero, rfl, before zero⟩
  | succ left ih =>
      unfold runPasses at ran
      dsimp only at ran
      split at ran
      · cases ran
        cases fine
      · split at ran
        · cases ran
        · cases ran
          cases fine
        · split at ran
          · cases ran
            cases fine
          · split at ran
            · cases ran
              cases fine
            · split at ran
              · cases ran
              · rename_i filled _ _ _ _ bad' world' answers scanned
                have clean : bad' = 0 → bad = 0 ∧ CleanPass file total kept
                    ⟨patterns.getD ((first + p) % 4) 0, file.flush filled, answers⟩ := by
                  rintro rfl
                  obtain ⟨none, follow, seen, size, same⟩ := scanPass_spec
                    (kept (file.flush filled)) (happens _) scanned trivial (Nat.zero_le _)
                    (fun _ _ member => (nomatch member)) (starts filled)
                    (fun _ member => (nomatch member))
                  refine ⟨none, ⟨filled, rfl⟩, follow, seen, ?_⟩
                  rw [← size]
                  exact List.eq_replicate_of_mem same
                obtain ⟨none, length, all⟩ := ih ran (by
                  intro none pass member
                  rcases List.mem_append.mp member with member | member
                  · exact before (clean none).1 pass member
                  · rw [List.mem_singleton.mp member]
                    exact (clean none).2)
                rw [List.length_append, List.length_singleton] at length
                exact ⟨(clean none).1, by omega, all⟩

end Scans

section Judgement

variable {σ : Type} {medium : Medium σ} {total : Nat}

/-- Every byte of a stretch that was read back is the medium's exactly when no read took
another one from the cache. -/
theorem readBack_iff {answers : List (Answer (Cached σ))} {stored : σ} {image : ByteMap}
    (follow : medium.cachedFile.Consecutive 0 answers)
    (settled : ∀ answer ∈ answers, Medium.Settled stored answer.world)
    (gathers : gathered answers = image.get 0 total) :
    (∀ index < total, medium.fetch stored index = image index) ↔ medium.Honest answers := by
  have size : (gathered answers).length = total := by rw [gathers, ByteMap.length_get]
  have gets : ∀ index < (gathered answers).length,
      (gathered answers)[index]? = some (image (0 + index)) := by
    intro index inside
    rw [gathers]
    exact ByteMap.getElem?_get (by omega)
  rw [← Medium.honest_iff follow settled gets, size]
  simp only [Nat.zero_add]

theorem get_constant (pattern : UInt8) (off : Nat) :
    ByteMap.get (fun _ => pattern) off total = List.replicate total pattern := by
  rw [ByteMap.get, List.map_const', List.length_range]

/-- A verified write is taken to say that the medium holds the image. -/
def VerifiedWriteJudges (medium : Medium σ) : Prop :=
  ∀ (request : Request) (node : LinuxNode) (script : Script CacheEvent) (image : ByteMap)
      (file : Cached σ) (outcome : Outcome (Cached σ)) (total : Nat),
    Linux.rufuxWriteImage medium.cachedFile request node image script file = some outcome →
    outcome.error = none → request.options.dryRun = false → request.options.verify = true →
    checkRequest request = .ok total → Delivers script.rereads total →
      ∀ index < total, medium.fetch outcome.world.stored index = image index

/-- A clean test is taken to say that the medium held every pattern. -/
def CleanTestJudges (medium : Medium σ) : Prop :=
  ∀ (target : ScanTarget) (allowFile : Bool) (passes : Int) (first : Nat)
      (scripts : Nat → PassScript CacheEvent) (file : Cached σ) (scan : Scan (Cached σ))
      (total : Nat),
    Linux.rufuxBadblocksWrite medium.cachedFile target allowFile passes first scripts file =
      some scan →
    scan.error = none → scan.bad = 0 → target.total = some total →
      ∀ pass ∈ scan.passes, ∀ index < total,
        medium.fetch pass.world.stored index = pass.pattern

theorem linux_unpadded {request : Request} {node : LinuxNode} {sink : Sink}
    (opened : node.openTarget request total = .ok sink) : sink.sector = none := by
  by_contra sector
  have checks := ((@openTarget_ok _ (.linux node) _ _ opened).2 sector).2
  cases checks

/-- A verified write and a clean test judge the medium exactly where their reads took nothing
from the cache that the medium does not have. -/
theorem verification_honest_iff (medium : Medium σ) :
    (∀ (request : Request) (node : LinuxNode) (script : Script CacheEvent) (image : ByteMap)
        (file : Cached σ) (outcome : Outcome (Cached σ)) (total : Nat),
      Linux.rufuxWriteImage medium.cachedFile request node image script file = some outcome →
      outcome.error = none → request.options.dryRun = false → request.options.verify = true →
      checkRequest request = .ok total → Delivers script.rereads total →
        ((∀ index < total, medium.fetch outcome.world.stored index = image index) ↔
          medium.Honest outcome.answers)) ∧
    ∀ (target : ScanTarget) (allowFile : Bool) (passes : Int) (first : Nat)
        (scripts : Nat → PassScript CacheEvent) (file : Cached σ) (scan : Scan (Cached σ))
        (total : Nat),
      Linux.rufuxBadblocksWrite medium.cachedFile target allowFile passes first scripts file =
        some scan →
      scan.error = none → scan.bad = 0 → target.total = some total →
        scan.passes.length = (max 1 (min passes 4)).toNat ∧ ∀ pass ∈ scan.passes,
          ((∀ index < total, medium.fetch pass.world.stored index = pass.pattern) ↔
            medium.Honest pass.answers) := by
  constructor
  · intro request node script image file outcome total ran fine real verify checked delivers
    obtain ⟨_, checked', course⟩ := writeImage_ok.mp ⟨ran, fine⟩
    rw [checked] at checked'
    cases checked'
    rcases course with ⟨dry, -⟩ | ⟨-, -, sink, opened, writes⟩
    · rw [real] at dry
      cases dry
    · obtain ⟨_, _, written, -, -, -, -, finish⟩ := writes
      rcases finish with ⟨unverified, -⟩ | ⟨-, -, sizes, last, final, pulled, -, folds, rfl⟩
      · rw [verify] at unverified
        cases unverified
      · obtain ⟨answers, all, follow, settled, matching, after⟩ :=
          verifyPass_spec (Medium.Settled (medium.cachedFile.flush written.world).stored)
            (fun _ event settled => settled.happen event) folds
            ((Medium.settled_flush written.world).foldl script.settled)
        rw [List.nil_append] at all
        rw [← all] at follow settled matching
        have gathers := matching.eq_get (linux_unpadded opened)
        rw [(delivers.whole pulled).2.1] at gathers
        rw [after.2]
        exact readBack_iff follow settled gathers
  · intro target allowFile passes first scripts file scan total ran fine zero sized
    unfold Linux.rufuxBadblocksWrite at ran
    dsimp only at ran
    split at ran
    · cases ran
      cases fine
    · split at ran
      · cases ran
        cases fine
      · rw [sized] at ran
        dsimp only at ran
        split at ran
        · cases ran
          cases fine
        · obtain ⟨-, length, clean⟩ := runPasses_clean
            (fun start world => Medium.Settled start.stored world)
            (fun _ _ event settled => settled.happen event) Medium.settled_flush ran fine zero
            (fun _ _ member => (nomatch member))
          refine ⟨by rw [length, List.length_nil, Nat.zero_add], ?_⟩
          intro pass member
          obtain ⟨-, follow, settled, gathers⟩ := clean pass member
          rw [← get_constant pass.pattern 0] at gathers
          exact readBack_iff follow settled gathers

/-- A stick that keeps nothing and answers zeros. -/
def fakeStick : Medium Unit where
  store state _ := state
  fetch _ _ := 0
  store_nothing _ := rfl

def freshStick : Cached Unit where
  regular := false
  size := 1
  cache := fun _ => none
  dirty := fun _ => false
  stored := ()

def verifiedRequest : Request where
  src := "image"
  dst := "/dev/sdb"
  options := ⟨false, true, false, false, true, 0⟩
  source := some ⟨true, 1, 1, 1⟩
  target := some ⟨false, 0, 1, 2⟩
  checkTarget _ _ := .ok ()
  fopenFails := none

def smoothWrite : Script CacheEvent where
  refills := [.full]
  turns := [.moved 1]
  flushed := none
  settled := []
  reopens := true
  rereads := [.full]
  returns := [.moved 1]

def smallStick : ScanTarget where
  path := "/dev/sdb"
  checkTarget _ _ := .ok ()
  stat := some ⟨false, 0, 1, 2⟩
  openFails := none
  capacity := some 1

def smoothPass : PassScript CacheEvent where
  seeks := true
  writes := [.moved 1]
  stale := ""
  synced := true
  rewinds := true
  reads := [.moved 1]

theorem smoothWrite_delivers : Delivers smoothWrite.rereads 1 :=
  ⟨[1], ⟨1, false, false⟩, rfl, rfl, rfl⟩

set_option maxRecDepth 2000 in
theorem verification_honest_iff_small :
    (∃ outcome : Outcome (Cached Unit), outcome.error = none ∧
      ((∀ index < 1, fakeStick.fetch outcome.world.stored index = 7) ↔
        fakeStick.Honest outcome.answers)) ∧
    ∃ scan : Scan (Cached Unit), scan.bad = 0 ∧ ∀ pass ∈ scan.passes,
      ((∀ index < 1, fakeStick.fetch pass.world.stored index = pass.pattern) ↔
        fakeStick.Honest pass.answers) :=
  ⟨⟨_, rfl, (verification_honest_iff fakeStick).1 verifiedRequest ⟨none, false, some 1⟩
      smoothWrite (fun _ => 7) freshStick _ 1 rfl rfl rfl rfl rfl smoothWrite_delivers⟩,
    _, rfl, ((verification_honest_iff fakeStick).2 smallStick false 1 0 (fun _ => smoothPass)
      freshStick _ 1 rfl rfl rfl rfl).2⟩

set_option maxRecDepth 2000 in
/-- Both features pass a stick that keeps nothing, as long as the cache answers for it. -/
theorem fakeStick_passes : ¬ VerifiedWriteJudges fakeStick ∧ ¬ CleanTestJudges fakeStick := by
  constructor
  · intro claimed
    have wrong := claimed verifiedRequest ⟨none, false, some 1⟩ smoothWrite (fun _ => 7)
      freshStick _ 1 rfl rfl rfl rfl rfl smoothWrite_delivers 0 (by decide)
    cases wrong
  · intro claimed
    have wrong := claimed smallStick false 1 0 (fun _ => smoothPass) freshStick _ 1 rfl rfl rfl
      rfl _ List.mem_cons_self 0 (by decide)
    cases wrong

end Judgement

end Rufux.Imaging
