import Rufux.Imaging.Verification

/-!
The bad-block test of both ports against any device: a test without bad regions has written
each pattern everywhere and read it back, and nothing that a scan met goes uncounted.
-/

namespace Rufux.Imaging

open Library

section Phases

variable {W E : Type} {file : Backing W E} {sink : Sink} {limit : Option Nat}
  {total left start off bad : Nat} {pattern : UInt8} {stale : String} {turns : List (Turn E)}
  {world last : W} {answers final : List (Answer W)}

/-! ### The Linux port -/

theorem fillPass_fills (within : off ≤ total)
    (ran : fillPass file total pattern stale turns world off = some (none, last)) :
    file.Fills pattern world off total last := by
  induction turns generalizing world off with
  | nil =>
      unfold fillPass at ran
      split at ran
      · rename_i all
        cases ran
        cases Nat.le_antisymm within all
        exact .done _ _
      · cases ran
  | cons turn rest ih =>
      unfold fillPass at ran
      split at ran
      · rename_i all
        cases ran
        cases Nat.le_antisymm within all
        exact .done _ _
      · cases turn with
        | happened event => exact .happened event (ih within ran)
        | interrupted => exact ih within ran
        | failed why => cases ran
        | moved count =>
            dsimp only at ran
            split at ran
            · cases ran
            · exact .wrote _ (ih (by omega) ran)

theorem scanPass_scans {bad' : Nat}
    (ran : scanPass file total pattern turns world bad answers = some (bad', last, final)) :
    ∃ bytes, gathered final = gathered answers ++ bytes ∧
      file.Scans world (gathered answers).length bytes last := by
  have stays : ∀ (answers : List (Answer W)) (world : W), ∃ bytes,
      gathered answers = gathered answers ++ bytes ∧
        file.Scans world (gathered answers).length bytes world :=
    fun answers world => ⟨[], (List.append_nil _).symm, .done _ _⟩
  induction turns generalizing world bad answers with
  | nil =>
      unfold scanPass at ran
      split at ran
      · cases ran
        exact stays _ _
      · cases ran
  | cons turn rest ih =>
      unfold scanPass at ran
      dsimp only at ran
      split at ran
      · cases ran
        exact stays _ _
      · cases turn with
        | happened event =>
            obtain ⟨bytes, all, scans⟩ := ih ran
            exact ⟨bytes, all, .happened event scans⟩
        | interrupted => exact ih ran
        | failed why =>
            cases ran
            exact stays _ _
        | moved count =>
            dsimp only at ran
            split at ran
            · cases ran
              exact stays _ _
            · obtain ⟨bytes, all, scans⟩ := ih ran
              rw [gathered_append, gathered_cons, gathered_nil, List.append_nil] at all scans
              rw [List.length_append] at scans
              rw [List.append_assoc] at all
              exact ⟨_, all, .read _ scans⟩

/-- What the scan of a pass does: it reads on from the start, and it counts nothing only if
all it read is the pattern, up to the end. -/
def ScanSpec (file : Backing W E) (total : Nat) (pattern : UInt8) (world : W) (bad : Nat)
    (outcome : Nat × W × List (Answer W)) : Prop :=
  file.Scans world 0 (gathered outcome.2.2) outcome.2.1 ∧
    (outcome.1 = 0 → bad = 0 ∧ gathered outcome.2.2 = List.replicate total pattern)

theorem scanPass_sound {outcome : Nat × W × List (Answer W)}
    (ran : scanPass file total pattern turns world bad [] = some outcome) :
    ScanSpec file total pattern world bad outcome := by
  obtain ⟨bad', last, final⟩ := outcome
  obtain ⟨bytes, all, scans⟩ := scanPass_scans ran
  rw [gathered_nil, List.nil_append] at all
  refine ⟨by rw [all]; exact scans, ?_⟩
  rintro rfl
  obtain ⟨none, -, -, size, same⟩ := scanPass_spec (fun _ => True) (fun _ _ _ => trivial) ran
    trivial (Nat.zero_le _) (fun _ _ member => (nomatch member)) trivial
    (fun _ member => (nomatch member))
  refine ⟨none, ?_⟩
  rw [← size]
  exact List.eq_replicate_of_mem same

/-! ### The macOS port -/

/-- A chunk that was written stands behind the ones before it, within the device. -/
theorem fillChunk_fills {ioLen : Nat} {after : List (Turn E)} (within : off ≤ ioLen)
    (ran : Macos.fillChunk file limit pattern stale start ioLen turns world off =
      some (none, last, after)) :
    file.Fills pattern world (start + off) (start + ioLen) last ∧
      (off < ioLen → limit = some total → start + ioLen ≤ total) := by
  induction turns generalizing world off with
  | nil =>
      unfold Macos.fillChunk at ran
      split at ran
      · rename_i all
        cases ran
        cases Nat.le_antisymm within all
        exact ⟨.done _ _, fun more => absurd more (Nat.lt_irrefl _)⟩
      · cases ran
  | cons turn rest ih =>
      unfold Macos.fillChunk at ran
      split at ran
      · rename_i all
        cases ran
        cases Nat.le_antisymm within all
        exact ⟨.done _ _, fun more => absurd more (Nat.lt_irrefl _)⟩
      · rename_i unfinished
        cases turn with
        | happened event =>
            obtain ⟨fills, inside⟩ := ih within ran
            exact ⟨.happened event fills, inside⟩
        | interrupted => exact ih within ran
        | failed why => cases ran
        | moved count =>
            dsimp only at ran
            split at ran
            · cases ran
            · rename_i moved
              have most : room limit (start + off) (ioLen - off) ≤ ioLen - off := by
                unfold room
                split
                · exact Nat.le_refl _
                · exact Nat.min_le_left _ _
              obtain ⟨fills, inside⟩ := ih (by omega) ran
              rw [← Nat.add_assoc] at fills
              refine ⟨.wrote _ fills, fun _ sized => ?_⟩
              by_cases more : off + min count (room limit (start + off) (ioLen - off)) < ioLen
              · exact inside more sized
              · rw [sized] at more moved
                unfold room at more moved
                dsimp only at more moved
                omega

/-- No chunk of what is left to do is padded. -/
def Unpadded (sink : Sink) (left : Nat) : Prop :=
  ∀ k, k * chunk < left → sink.padded (min chunk (left - k * chunk)) = min chunk (left - k * chunk)

theorem unpadded_iff (more : left ≠ 0) :
    Unpadded sink left ↔ sink.padded (min chunk left) = min chunk left ∧
      Unpadded sink (left - min chunk left) := by
  have later (k : Nat) : (k + 1) * chunk = k * chunk + chunk := Nat.succ_mul k chunk
  constructor
  · intro unpadded
    refine ⟨?_, fun k inside => ?_⟩
    · have first := unpadded 0 (by rw [Nat.zero_mul]; omega)
      rwa [Nat.zero_mul, Nat.sub_zero] at first
    · have next := unpadded (k + 1) (by rw [later]; omega)
      have same : left - (k + 1) * chunk = left - min chunk left - k * chunk := by
        rw [later]
        omega
      rwa [same] at next
  · rintro ⟨first, rest⟩ k inside
    cases k with
    | zero => rwa [Nat.zero_mul, Nat.sub_zero]
    | succ k =>
        rw [later] at inside
        have same : left - (k + 1) * chunk = left - min chunk left - k * chunk := by
          rw [later]
          omega
        rw [same]
        exact rest k (by omega)

/-- How far a write phase can get: to the end of a device, or as far as a regular file asks. -/
def Bounded (sink : Sink) (limit : Option Nat) (total start left : Nat) : Prop :=
  (limit = some total ∧ start ≤ total ∧ total ≤ start + left) ∨
    (sink.sector = none ∧ start + left = total)

/-- A write phase that went through has written the device from end to end, and none of its
chunks reached past its own. -/
theorem macosFillPass_fills (bounded : Bounded sink limit total start left)
    (ran : Macos.fillPass file sink limit pattern stale left start turns world =
      some (none, last)) :
    start + left = total ∧ Unpadded sink left ∧ file.Fills pattern world start total last := by
  induction left using Nat.strong_induction_on generalizing start turns world with
  | _ left ih =>
      rw [Macos.fillPass] at ran
      by_cases finished : left = 0
      · rw [if_pos finished] at ran
        cases ran
        have ends : start = total := by
          rcases bounded with ⟨-, least, most⟩ | ⟨-, same⟩ <;> omega
        subst finished ends
        exact ⟨rfl, fun k inside => absurd inside (Nat.not_lt_zero _), .done _ _⟩
      · rw [if_neg finished] at ran
        dsimp only at ran
        have larger := le_padded sink (min chunk left)
        have size : 0 < chunk := by decide
        split at ran
        · cases ran
        · cases ran
        · rename_i middle after chunked
          obtain ⟨fills, inside⟩ := @fillChunk_fills _ _ _ _ total _ _ _ _ _ _ _ _ _
            (Nat.zero_le _) chunked
          have next : Bounded sink limit total (start + sink.padded (min chunk left))
              (left - min chunk left) := by
            rcases bounded with ⟨device, least, most⟩ | ⟨plain, same⟩
            · exact .inl ⟨device, inside (by omega) device, by omega⟩
            · have unpadded : sink.padded (min chunk left) = min chunk left := by
                rw [Sink.padded, plain]
              exact .inr ⟨plain, by omega⟩
          obtain ⟨ends, unpadded, rest⟩ := ih _ (chunk_decreases finished) next ran
          have exact : sink.padded (min chunk left) = min chunk left := by
            rcases bounded with ⟨-, -, most⟩ | ⟨plain, -⟩
            · omega
            · rw [Sink.padded, plain]
          exact ⟨by omega, (unpadded_iff finished).mpr ⟨exact, unpadded⟩, fills.trans rest⟩

theorem macosScanPass_scans {outcome : Nat × W × List (Answer W)}
    (unpadded : Unpadded sink left)
    (ran : Macos.scanPass file sink pattern left start turns world bad answers = some outcome) :
    ∃ bytes, gathered outcome.2.2 = gathered answers ++ bytes ∧
      file.Scans world start bytes outcome.2.1 ∧
      (outcome.1 = 0 → bad = 0 ∧ bytes = List.replicate left pattern) := by
  induction left using Nat.strong_induction_on generalizing start turns world bad answers with
  | _ left ih =>
      rw [Macos.scanPass] at ran
      by_cases finished : left = 0
      · rw [if_pos finished] at ran
        cases ran
        subst finished
        exact ⟨[], (List.append_nil _).symm, .done _ _, fun none => ⟨none, rfl⟩⟩
      · rw [if_neg finished] at ran
        dsimp only at ran
        split at ran
        · cases ran
        · rename_i fetched read
          obtain ⟨bytes, all, scans⟩ := readFull_scans read
          rw [gathered_nil, List.nil_append] at all
          rw [gathered_nil, List.length_nil, Nat.add_zero] at scans
          have few := (readFull_spec (fun _ => True) (fun _ _ _ => trivial) read trivial
            (Nat.zero_le _) trivial (fun _ member => absurd member List.not_mem_nil)).2.1
          split at ran
          · cases ran
            refine ⟨bytes, by rw [gathered_append, all], scans,
              fun zero => absurd zero (Nat.succ_ne_zero bad)⟩
          · rename_i complete
            obtain ⟨exact, later⟩ := (unpadded_iff finished).mp unpadded
            have size : bytes.length = min chunk left := by
              rw [all] at complete few
              omega
            obtain ⟨rest, all', scans', counted⟩ := ih _ (chunk_decreases finished) later ran
            rw [exact, ← size] at scans'
            refine ⟨bytes ++ rest, ?_, scans.trans scans', ?_⟩
            · rw [all', gathered_append, all, List.append_assoc]
            · intro zero
              obtain ⟨before, same⟩ := counted zero
              rw [all, ← size, List.take_length] at before
              split at before
              · rename_i right
                refine ⟨before, ?_⟩
                rw [same, List.eq_replicate_of_mem right, size, ← List.replicate_add]
                congr 1
                omega
              · cases before

theorem macosScanPass_sound {outcome : Nat × W × List (Answer W)}
    (unpadded : Unpadded sink total)
    (ran : Macos.scanPass file sink pattern total 0 turns world bad [] = some outcome) :
    ScanSpec file total pattern world bad outcome := by
  obtain ⟨bytes, all, scans, counted⟩ := macosScanPass_scans unpadded ran
  rw [gathered_nil, List.nil_append] at all
  subst all
  exact ⟨scans, counted⟩

end Phases

section Tests

variable {W E : Type} {file : Backing W E} {total : Nat}

/-- The pattern of a pass. -/
def patternOf (first p : Nat) : UInt8 := patterns.getD ((first + p) % 4) 0

theorem patternOf_mod (first : Nat) : patternOf (first % 4) = patternOf first := by
  funext p
  rw [patternOf, patternOf, Nat.mod_add_mod]

/-- Passes from one state to another: each writes its pattern everywhere, and its reads, which
follow each other from the start to the end, return that pattern. -/
def Tested (file : Backing W E) (total : Nat) (patternAt : Nat → UInt8) :
    Nat → Nat → W → W → Prop
  | _, 0, world, last => world = last
  | p, left + 1, world, last => ∃ filled next,
      file.Fills (patternAt p) world 0 total filled ∧
      file.Scans (file.flush filled) 0 (List.replicate total (patternAt p)) next ∧
      Tested file total patternAt (p + 1) left next last

/-- The reads of a pass returned its pattern, up to the end. -/
def ReadsPattern (total : Nat) (pass : Pass W) : Prop :=
  gathered pass.answers = List.replicate total pass.pattern

variable {fill : UInt8 → PassScript E → W → Option (Option String × W)}
  {scan : UInt8 → PassScript E → W → Nat → Option (Nat × W × List (Answer W))}
  {first left p bad : Nat} {scripts : Nat → PassScript E} {world : W} {passes : List (Pass W)}
  {result : Scan W} {ready : Prop}

/-- With sound phases, a test that succeeds without bad regions has done what it says. -/
theorem passesWith_tested
    (fills : ∀ pattern script world last, fill pattern script world = some (none, last) →
      file.Fills pattern world 0 total last ∧ ready)
    (scans : ready → ∀ pattern script world bad outcome,
      scan pattern script world bad = some outcome → ScanSpec file total pattern world bad outcome)
    (ran : passesWith file fill scan first scripts left p world bad passes = some result)
    (fine : result.error = none) (zero : result.bad = 0)
    (before : bad = 0 → ∀ pass ∈ passes, ReadsPattern total pass) :
    bad = 0 ∧ Tested file total (patternOf first) p left world result.world ∧
      result.passes.length = passes.length + left ∧ ∀ pass ∈ result.passes, ReadsPattern total pass := by
  induction left generalizing p world bad passes with
  | zero =>
      cases ran
      exact ⟨zero, rfl, rfl, before zero⟩
  | succ left ih =>
      unfold passesWith at ran
      dsimp only at ran
      split at ran
      · cases ran
        cases fine
      · split at ran
        · cases ran
        · cases ran
          cases fine
        · rename_i filled filling
          split at ran
          · cases ran
            cases fine
          · split at ran
            · cases ran
              cases fine
            · split at ran
              · cases ran
              · rename_i bad' next answers scanning
                obtain ⟨written, able⟩ := fills _ _ _ _ filling
                obtain ⟨reads, counted⟩ := scans able _ _ _ _ _ scanning
                dsimp only at reads counted
                obtain ⟨none, tested, length, all⟩ := ih ran (by
                  intro none pass member
                  rcases List.mem_append.mp member with member | member
                  · exact before (counted none).1 pass member
                  · rw [List.mem_singleton.mp member]
                    exact (counted none).2)
                obtain ⟨clean, same⟩ := counted none
                rw [same] at reads
                rw [List.length_append, List.length_singleton] at length
                exact ⟨clean, ⟨filled, next, written, reads, tested⟩, by omega, all⟩

theorem runPasses_eq : runPasses file total first scripts left p world bad passes =
    passesWith file
      (fun pattern script world => fillPass file total pattern script.stale script.writes world 0)
      (fun pattern script world bad => scanPass file total pattern script.reads world bad [])
      first scripts left p world bad passes := by
  induction left generalizing p world bad passes with
  | zero => rfl
  | succ left ih =>
      unfold runPasses passesWith
      simp only [ih]

/-- A test that did not fail is sound: without bad regions every pass has written its pattern
everywhere and read it back, and whatever a pass did not read back is counted. -/
structure SoundTest (file : Backing W E) (total first count : Nat) (world : W)
    (result : Scan W) : Prop where
  tested : result.bad = 0 →
    result.passes.length = count ∧ Tested file total (patternOf first) 0 count world result.world
  noticed : ∀ pass ∈ result.passes,
    (∃ byte ∈ gathered pass.answers, byte ≠ pass.pattern) ∨
      (gathered pass.answers).length < total → result.bad ≠ 0

theorem passesWith_sound {count : Nat}
    (fills : ∀ pattern script world last, fill pattern script world = some (none, last) →
      file.Fills pattern world 0 total last ∧ ready)
    (scans : ready → ∀ pattern script world bad outcome,
      scan pattern script world bad = some outcome → ScanSpec file total pattern world bad outcome)
    (ran : passesWith file fill scan first scripts count 0 world 0 [] = some result)
    (fine : result.error = none) : SoundTest file total first count world result := by
  have clean (zero : result.bad = 0) := passesWith_tested fills scans ran fine zero
    (fun _ _ member => (nomatch member))
  constructor
  · intro zero
    obtain ⟨-, tested, length, -⟩ := clean zero
    rw [List.length_nil, Nat.zero_add] at length
    exact ⟨length, tested⟩
  · intro pass member missed zero
    have same : gathered pass.answers = List.replicate total pass.pattern :=
      (clean zero).2.2.2 pass member
    rcases missed with ⟨byte, inside, other⟩ | short
    · rw [same] at inside
      exact other (List.eq_of_mem_replicate inside)
    · rw [same, List.length_replicate] at short
      exact absurd short (Nat.lt_irrefl _)

theorem macos_bounded {target : Macos.ScanTarget} {allowFile : Bool} {sink : Sink}
    (opened : target.openTarget allowFile = .ok (sink, total)) :
    Bounded sink (sink.limit total) total 0 total := by
  have plain : sink.regular = true → sink.sector = none := by
    intro regular
    unfold Macos.ScanTarget.openTarget at opened
    dsimp only at opened
    split at opened
    · cases opened
    · split at opened
      · cases opened
      · rename_i stat _
        split at opened
        · cases opened
        · generalize (if stat.regular = true then target.path
            else rufuxMacosRawNode target.path) = ioPath at opened
          by_cases empty : target.devBytes ioPath = 0
          · rw [if_pos empty] at opened
            cases opened
          · rw [if_neg empty] at opened
            split at opened
            · cases opened
            · cases opened
              dsimp only at regular ⊢
              rw [regular]
              rfl
  unfold Sink.limit
  cases regular : sink.regular with
  | true => exact .inr ⟨plain regular, Nat.zero_add _⟩
  | false => exact .inl ⟨rfl, Nat.zero_le _, by omega⟩

/-- The bad-block tests of both ports are sound on every device, however its reads and writes
behave. -/
theorem badblocks_sound {W E : Type} (file : Backing W E) (allowFile : Bool) (passes : Int)
    (first : Nat) (scripts : Nat → PassScript E) (world : W) :
    (∀ (target : ScanTarget) (result : Scan W),
      Linux.rufuxBadblocksWrite file target allowFile passes first scripts world = some result →
      result.error = none → ∃ total, target.total = some total ∧
        SoundTest file total first (max 1 (min passes 4)).toNat world result) ∧
    ∀ (target : Macos.ScanTarget) (result : Scan W),
      Macos.rufuxBadblocksWrite file target allowFile passes first scripts world = some result →
      result.error = none → ∃ sink total, target.openTarget allowFile = .ok (sink, total) ∧
        SoundTest file total first (max 1 (min passes 4)).toNat world result := by
  constructor
  · intro target result ran fine
    unfold Linux.rufuxBadblocksWrite at ran
    dsimp only at ran
    split at ran
    · cases ran
      cases fine
    · split at ran
      · cases ran
        cases fine
      · split at ran
        · cases ran
          cases fine
        · rename_i total sized
          split at ran
          · cases ran
            cases fine
          · rw [runPasses_eq] at ran
            refine ⟨total, sized, @passesWith_sound _ _ _ _ _ _ _ _ _ _ True _ ?_ ?_ ran fine⟩
            · intro pattern script world last filled
              exact ⟨fillPass_fills (Nat.zero_le _) filled, trivial⟩
            · intro _ pattern script world bad outcome scanned
              exact scanPass_sound scanned
  · intro target result ran fine
    unfold Macos.rufuxBadblocksWrite at ran
    dsimp only at ran
    split at ran
    · cases ran
      cases fine
    · rename_i sink total opened
      have index : (((first : Int).tmod 4 + 4).tmod 4).toNat = first % 4 := by
        have inner : (first : Int).tmod 4 = first % 4 := Int.tmod_eq_emod_of_nonneg (by omega)
        rw [inner, Int.tmod_eq_emod_of_nonneg (by omega)]
        omega
      rw [index] at ran
      have sound : SoundTest file total (first % 4) (max 1 (min passes 4)).toNat world result := by
        refine @passesWith_sound _ _ _ _ _ _ _ _ _ _ (Unpadded sink total) _ ?_ ?_ ran fine
        · intro pattern script world last filled
          obtain ⟨-, unpadded, fills⟩ := macosFillPass_fills (macos_bounded opened) filled
          exact ⟨fills, unpadded⟩
        · intro unpadded pattern script world bad outcome scanned
          exact macosScanPass_sound unpadded scanned
      refine ⟨sink, total, opened, ?_, sound.noticed⟩
      rw [← patternOf_mod]
      exact sound.tested

end Tests

end Rufux.Imaging
