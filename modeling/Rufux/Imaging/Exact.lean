import Rufux.Imaging.Passes

/-!
When a raw image write that reports success has copied the image: runs that succeed, what
they leave on the target, and the sources and sector sizes for which that is the image.
-/

namespace Rufux.Imaging

open Library

section Success

variable {W E : Type} {port : Port} {file : Backing W E} {request : Request} {sink : Sink}
  {total : Nat} {image : ByteMap} {script : Script E} {world : W} {outcome : Outcome W}
  {openTarget : Nat → Except String Sink}

/-- A verifying pass that found nothing. -/
def Verifies (port : Port) (file : Backing W E) (sink : Sink) (total : Nat) (image : ByteMap)
    (script : Script E) (world : W) (outcome : Outcome W) : Prop :=
  script.reopens = true ∧ ∃ sizes last final,
    pull script.rereads fopened total = some (sizes, last) ∧
    (port.checksReread = true → last.failed = false) ∧
    Folds (verifyChunk file sink image) 0 sizes ⟨world, 0, script.returns, []⟩ final ∧
    outcome = ⟨none, final.world, final.answers⟩

/-- A run that wrote the target and found nothing wrong. -/
def Writes (port : Port) (file : Backing W E) (request : Request) (sink : Sink) (total : Nat)
    (image : ByteMap) (script : Script E) (world : W) (outcome : Outcome W) : Prop :=
  ∃ sizes last final,
    pull script.refills fopened total = some (sizes, last) ∧ last.failed = false ∧
    Folds (writeChunk port file sink image) 0 sizes ⟨world, 0, script.turns⟩ final ∧
    script.flushed = none ∧
    ((request.options.verify = false ∧ outcome = ⟨none, file.flush final.world, []⟩) ∨
      (request.options.verify = true ∧ Verifies port file sink total image script
        (script.settled.foldl file.happen (file.flush final.world)) outcome))

theorem verifyPhase_ok :
    verifyPhase port file request sink total image script world = some outcome ∧
        outcome.error = none ↔
      Verifies port file sink total image script world outcome := by
  constructor
  · rintro ⟨ran, fine⟩
    unfold verifyPhase at ran
    dsimp only at ran
    split at ran
    · cases ran
      cases fine
    · rename_i reopens
      split at ran
      · cases ran
      · cases ran
        cases fine
      · rename_i state stream looped
        obtain ⟨sizes, pulled, folds⟩ := forChunks_ok.mp looped
        split at ran
        · cases ran
          cases fine
        · rename_i unread
          cases ran
          refine ⟨by simpa using reopens, sizes, stream, state, pulled, ?_, folds, rfl⟩
          intro checks
          simpa [checks] using unread
  · rintro ⟨reopens, sizes, last, final, pulled, checked, folds, rfl⟩
    refine ⟨?_, rfl⟩
    have looped := forChunks_ok.mpr ⟨sizes, pulled, folds⟩
    have unread : (port.checksReread && last.failed) = false := by
      cases checks : port.checksReread with
      | false => rfl
      | true => rw [checked checks, Bool.and_false]
    unfold verifyPhase
    dsimp only
    rw [reopens, looped]
    simp only [unread, Bool.not_true, Bool.false_eq_true, if_false]

theorem flushPhase_ok {error : Option String} :
    (flushPhase port file script error world).1 = none ↔ error = none ∧ script.flushed = none := by
  unfold flushPhase
  cases error with
  | none => cases script.flushed <;> simp
  | some why =>
      cases port.flushesFailed <;> cases script.flushed <;> simp

theorem flushPhase_world (flushed : script.flushed = none) :
    flushPhase port file script none world = (none, file.flush world) := by
  unfold flushPhase
  rw [flushed]
  rfl

theorem writePhase_ok :
    writePhase port file request sink total image script world = some outcome ∧
        outcome.error = none ↔
      Writes port file request sink total image script world outcome := by
  constructor
  · rintro ⟨ran, fine⟩
    unfold writePhase at ran
    dsimp only at ran
    split at ran
    · cases ran
    · rename_i why left looped
      cases ran
      cases (flushPhase_ok.mp fine).1
    · rename_i state stream looped
      obtain ⟨sizes, pulled, folds⟩ := forChunks_ok.mp looped
      generalize failed : (if stream.failed = true then _ else none) = error at ran
      cases flushed : (flushPhase port file script error state.world).1 with
      | some why =>
          simp only [flushed, Option.isSome_some, Bool.true_or, if_true] at ran
          cases ran
          cases fine
      | none =>
          obtain ⟨rfl, synced⟩ := flushPhase_ok.mp flushed
          have read : stream.failed = false := by
            cases bad : stream.failed with
            | false => rfl
            | true =>
                rw [if_pos bad] at failed
                cases failed
          rw [flushPhase_world synced] at ran
          cases verify : request.options.verify with
          | false =>
              simp only [verify, Option.isSome_none, Bool.not_false, Bool.or_true, if_true] at ran
              cases ran
              exact ⟨sizes, stream, state, pulled, read, folds, synced, .inl ⟨verify, rfl⟩⟩
          | true =>
              simp only [verify, Option.isSome_none, Bool.not_true, Bool.or_false,
                Bool.false_eq_true, if_false] at ran
              exact ⟨sizes, stream, state, pulled, read, folds, synced,
                .inr ⟨verify, verifyPhase_ok.mp ⟨ran, fine⟩⟩⟩
  · rintro ⟨sizes, last, final, pulled, read, folds, synced, verified⟩
    have looped := forChunks_ok.mpr ⟨sizes, pulled, folds⟩
    unfold writePhase
    dsimp only
    rw [looped]
    simp only [read, Bool.false_eq_true, if_false, flushPhase_world synced]
    rcases verified with ⟨verify, rfl⟩ | ⟨verify, verifies⟩
    · rw [verify]
      exact ⟨rfl, rfl⟩
    · rw [verify]
      exact verifyPhase_ok.mpr verifies

/-- A run that reports success was a simulation or wrote its target. -/
theorem writeImage_ok :
    writeImage port file request openTarget image script world = some outcome ∧
        outcome.error = none ↔
      ∃ total, checkRequest request = .ok total ∧
        ((request.options.dryRun = true ∧ outcome = ⟨none, world, []⟩ ∧
            ∃ sizes last, pull script.refills fopened total = some (sizes, last) ∧
              last.failed = false) ∨
          (request.options.dryRun = false ∧ request.options.yes = true ∧
            ∃ sink, openTarget total = .ok sink ∧
              Writes port file request sink total image script
                (if sink.regular then file.truncate world else world) outcome)) := by
  unfold writeImage
  cases checked : checkRequest request with
  | error why =>
      constructor
      · rintro ⟨ran, fine⟩
        cases ran
        cases fine
      · rintro ⟨_, bad, _⟩
        cases bad
  | ok total =>
      dsimp only
      cases dry : request.options.dryRun with
      | true =>
          rw [if_pos rfl]
          constructor
          · rintro ⟨ran, fine⟩
            split at ran
            · cases ran
            · rename_i sizes last pulled
              cases ran
              have read : last.failed = false := by
                cases bad : last.failed with
                | false => rfl
                | true =>
                    rw [bad] at fine
                    cases fine
              exact ⟨total, rfl, .inl ⟨rfl, by rw [read]; rfl, sizes, last, pulled, read⟩⟩
          · rintro ⟨_, same, ⟨_, rfl, sizes, last, pulled, read⟩ | ⟨bad, _⟩⟩
            · cases same
              rw [pulled]
              dsimp only
              rw [read]
              exact ⟨rfl, rfl⟩
            · cases bad
      | false =>
          rw [if_neg (by decide)]
          constructor
          · rintro ⟨ran, fine⟩
            split at ran
            · cases ran
              cases fine
            · rename_i yes
              split at ran
              · cases ran
                cases fine
              · rename_i sink opened
                exact ⟨total, rfl, .inr ⟨rfl, by simpa using yes, sink, opened,
                  writePhase_ok.mp ⟨ran, fine⟩⟩⟩
          · rintro ⟨_, same, ⟨bad, _⟩ | ⟨_, yes, sink, opened, writes⟩⟩
            · cases bad
            · cases same
              rw [yes, opened]
              exact writePhase_ok.mpr writes

end Success

section Opening

variable {request : Request} {node : Node} {total : Nat} {sink : Sink}

def Request.regular (request : Request) : Bool :=
  (request.target.map FileStat.regular).getD false

theorem rufuxWriteImage_eq {W E : Type} (file : Backing W E) (request : Request) (node : Node) :
    rufuxWriteImage file request node =
      writeImage node.port file request (node.openTarget request) := by
  cases node <;> rfl

theorem checkRequest_ne_zero (checked : checkRequest request = .ok total) : total ≠ 0 := by
  unfold checkRequest at checked
  dsimp only at checked
  split at checked
  · cases checked
  · rename_i stat _
    generalize (if 0 < request.options.srcLen then _ else stat.size) = amount at checked
    repeat' split at checked
    all_goals cases checked
    assumption

/-- Only the macOS port pads, and only on a device. -/
theorem openTarget_ok (opened : node.openTarget request total = .ok sink) :
    sink.regular = request.regular ∧
      (sink.sector ≠ none → sink.regular = false ∧ node.port.checksReread = true) := by
  cases node with
  | linux node =>
      simp only [Node.openTarget, LinuxNode.openTarget] at opened
      repeat' split at opened
      all_goals cases opened
      all_goals simp_all [Request.regular]
  | macos node =>
      simp only [Node.openTarget, MacosNode.openTarget] at opened
      repeat' split at opened
      all_goals cases opened
      all_goals simp_all [Request.regular, Node.port, macosPort]

end Opening

section Exactness

/-- The source gives so many bytes and meets no error on the way. -/
def Delivers (refills : List Refill) (total : Nat) : Prop :=
  ∃ sizes last, pull refills fopened total = some (sizes, last) ∧ sizes.sum = total ∧
    last.failed = false

/-- Each of the first bytes has been read, and was the image's. -/
def ReadBack {W : Type} (answers : List (Answer W)) (image : ByteMap) (total : Nat) : Prop :=
  ∀ index < total, ∃ answer ∈ answers, answer.start ≤ index ∧
    answer.bytes[index - answer.start]? = some (image index)

/-- A success that means what it says: the image is on the target and nothing else is, the
source never fell short, and everything was read back if that was asked for. -/
structure Faithful (request : Request) (script : Script Empty) (total : Nat) (sink : Sink)
    (image initial : ByteMap) (outcome : Outcome Disk) : Prop where
  copied : ∀ index < total, outcome.world.bytes index = image index
  sized : request.regular = true → outcome.world.size = total
  untouched : request.regular = false → ∀ index, sink.padded total ≤ index →
    outcome.world.bytes index = initial index
  source : Delivers script.refills total
  reread : request.options.verify = true →
    Delivers script.rereads total ∧ ReadBack outcome.answers image total

/-- What makes a success faithful: it is no simulation, the source delivers everything in each
pass, and where the target takes whole sectors only they divide a chunk or one chunk is all. -/
structure Sound (request : Request) (node : Node) (script : Script Empty) : Prop where
  writes : request.options.dryRun = false
  source : ∀ total, checkRequest request = .ok total → Delivers script.refills total
  reread : request.options.verify = true → ∀ total, checkRequest request = .ok total →
    Delivers script.rereads total
  sectors : ∀ total sink, checkRequest request = .ok total →
    node.openTarget request total = .ok sink → sink.padded chunk = chunk ∨ total ≤ chunk

variable {request : Request} {node : Node} {script : Script Empty} {total : Nat} {sink : Sink}
  {image : ByteMap} {outcome : Outcome Disk} {disk : Disk} {port : Port} {sizes : List Nat}
  {last : Stream}

theorem Delivers.whole {refills : List Refill} (delivers : Delivers refills total)
    (pulled : pull refills fopened total = some (sizes, last)) :
    WholeOf total sizes ∧ sizes.sum = total ∧ last.failed = false := by
  obtain ⟨sizes', last', pulled', all, fine⟩ := delivers
  rw [pulled] at pulled'
  cases pulled'
  exact ⟨pull_whole pulled all fine, all, fine⟩

theorem foldl_settled (settled : List Empty) (world : Disk) :
    settled.foldl plainFile.happen world = world := by
  cases settled with
  | nil => rfl
  | cons event _ => exact nomatch event

/-- A verifying pass leaves a plain file as it is and has read what it holds. -/
theorem Verifies.plain (verified : Verifies port plainFile sink total image script disk outcome) :
    outcome.world = disk ∧ plainFile.Consecutive 0 outcome.answers ∧
      ∃ sizes last, pull script.rereads fopened total = some (sizes, last) ∧
        Matches sink image 0 sizes (gathered outcome.answers) := by
  obtain ⟨-, sizes, last, final, pulled, -, folds, rfl⟩ := verified
  obtain ⟨answers, all, follow, -, matching, still⟩ :=
    verifyPass_spec (· = disk) (fun _ event => nomatch event) folds rfl
  rw [List.nil_append] at all
  dsimp only
  rw [all]
  exact ⟨still, follow, sizes, last, pulled, matching⟩

/-- What a successful run has left on a plain file. -/
theorem Writes.plain (writes : Writes port plainFile request sink total image script disk outcome) :
    ∃ sizes last, pull script.refills fopened total = some (sizes, last) ∧ last.failed = false ∧
      outcome.world = disk.store 0 (laid sink image 0 sizes) ∧
      (request.options.verify = true →
        Verifies port plainFile sink total image script outcome.world outcome) := by
  obtain ⟨sizes, last, final, pulled, fine, folds, -, finish⟩ := writes
  have stored := writePass_stores folds (fun _ => Nat.zero_le _)
  refine ⟨sizes, last, pulled, fine, ?_, ?_⟩
  · rcases finish with ⟨-, rfl⟩ | ⟨-, verified⟩
    · exact stored
    · rw [verified.plain.1, foldl_settled]
      exact stored
  · intro verify
    rcases finish with ⟨unverified, -⟩ | ⟨-, verified⟩
    · rw [verify] at unverified
      cases unverified
    · have same := verified.plain.1
      rw [foldl_settled] at same verified
      rw [same]
      exact verified

/-- The target as the writing pass finds it. -/
def emptied (sink : Sink) (disk : Disk) : Disk :=
  if sink.regular then plainFile.truncate disk else disk

theorem padded_plain (plain : sink.sector = none) (n : Nat) : sink.padded n = n := by
  rw [Sink.padded, plain]

/-- A run whose sources deliver, on a target whose sectors fit the chunks, is faithful. -/
theorem Writes.faithful {initial : ByteMap} {size : Nat}
    (opened : node.openTarget request total = .ok sink)
    (writes : Writes port plainFile request sink total image script
      (emptied sink ⟨request.regular, size, initial⟩) outcome)
    (source : Delivers script.refills total)
    (reread : request.options.verify = true → Delivers script.rereads total)
    (sectors : sink.padded chunk = chunk ∨ total ≤ chunk) :
    Faithful request script total sink image initial outcome := by
  obtain ⟨kind, pads⟩ := openTarget_ok opened
  obtain ⟨sizes, last, pulled, fine, stored, verified⟩ := writes.plain
  obtain ⟨whole, all, -⟩ := source.whole pulled
  have padded := paddedLast_of_whole whole sectors
  have length : (laid sink image 0 sizes).length = sink.padded sizes.sum := length_laid padded
  rw [all] at length
  have larger := le_padded sink total
  refine ⟨?_, ?_, ?_, source, ?_⟩
  · intro index inside
    have here : (laid sink image 0 sizes)[index]? = some (image (0 + index)) :=
      matches_laid.getElem? padded (by rw [all]; exact inside)
    have put : (emptied sink ⟨request.regular, size, initial⟩).bytes.put 0
        (laid sink image 0 sizes) (0 + index) = (laid sink image 0 sizes).getD index 0 :=
      ByteMap.put_inside (by omega)
    rw [Nat.zero_add] at here put
    rw [stored]
    exact put.trans (by rw [List.getD_eq_getElem?_getD, here]; rfl)
  · intro regular
    have unpadded : sink.sector = none := by
      by_contra sector
      have device := (pads sector).1
      rw [kind, regular] at device
      cases device
    have grown : (emptied sink ⟨request.regular, size, initial⟩).regular = true := by
      rw [emptied, kind, regular]
      rfl
    have empty : (emptied sink ⟨request.regular, size, initial⟩).size = 0 := by
      rw [emptied, kind, regular]
      rfl
    rw [stored, Disk.size_store grown, empty, length, padded_plain unpadded]
    omega
  · intro device index behind
    have same : (emptied sink ⟨request.regular, size, initial⟩).bytes = initial := by
      rw [emptied, kind, device]
      rfl
    have outside : 0 + (laid sink image 0 sizes).length ≤ index := by omega
    rw [stored]
    exact (ByteMap.put_outside (.inr outside)).trans (congrFun same index)
  · intro verify
    refine ⟨reread verify, ?_⟩
    obtain ⟨-, follow, resizes, relast, repulled, matching⟩ := (verified verify).plain
    obtain ⟨rewhole, reall, -⟩ := (reread verify).whole repulled
    intro index inside
    have here := matching.getElem? (paddedLast_of_whole rewhole sectors)
      (show index < resizes.sum by omega)
    obtain ⟨read, -⟩ := List.getElem?_eq_some_iff.mp here
    obtain ⟨answer, member, lower, -, byte⟩ := follow.covers read
    rw [here] at byte
    rw [Nat.zero_add] at lower byte
    exact ⟨answer, member, lower, byte⟩

/-- Where both sources deliver, a run that succeeds for one image succeeds for every other. -/
theorem Writes.shape (other bytes : ByteMap) {initial : ByteMap} {size : Nat}
    (writes : Writes port plainFile request sink total image script
      (emptied sink ⟨request.regular, size, initial⟩) outcome)
    (source : Delivers script.refills total)
    (reread : request.options.verify = true → Delivers script.rereads total)
    (device : sink.regular = false ∧ request.regular = false) :
    ∃ outcome', Writes port plainFile request sink total other script
      (emptied sink ⟨request.regular, size, bytes⟩) outcome' := by
  obtain ⟨sizes, last, final, pulled, fine, folds, flushed, finish⟩ := writes
  obtain ⟨final', folds'⟩ := writePass_shape other
    ⟨emptied sink ⟨request.regular, size, bytes⟩, 0, script.turns⟩ folds rfl rfl
  have untouched : ∀ bytes, emptied sink ⟨request.regular, size, bytes⟩ = ⟨false, size, bytes⟩ := by
    intro bytes
    rw [emptied, device.1, device.2]
    rfl
  have stored := writePass_stores folds (fun _ => Nat.zero_le _)
  have stored' := writePass_stores folds' (fun _ => Nat.zero_le _)
  rw [untouched] at stored stored'
  rcases finish with ⟨unverified, -⟩ | ⟨verify, reopens, resizes, relast, refinal, repulled,
    checked, refolds, -⟩
  · exact ⟨_, sizes, last, final', pulled, fine, folds', flushed, .inl ⟨unverified, rfl⟩⟩
  · rw [foldl_settled] at refolds
    have same : resizes = sizes :=
      ((reread verify).whole repulled).1.unique (source.whole pulled).1
    subst same
    obtain ⟨refinal', refolds'⟩ := verifyPass_shape
      ⟨final'.world, 0, script.returns, []⟩ refolds rfl rfl
      (by
        change final'.world.size = final.world.size
        rw [stored, stored']
        rfl)
      (by
        rw [stored']
        exact ByteMap.get_put)
    refine ⟨_, resizes, last, final', pulled, fine, folds', flushed,
      .inr ⟨verify, reopens, resizes, relast, refinal', repulled, checked, ?_, rfl⟩⟩
    rw [foldl_settled]
    exact refolds'

/-- A device whose sectors do not fit the chunks holds zeros behind the first chunk. -/
theorem Writes.shifted {initial : ByteMap} {size : Nat}
    (writes : Writes port plainFile request sink total image script
      (emptied sink ⟨request.regular, size, initial⟩) outcome)
    (source : Delivers script.refills total) (padded : sink.padded chunk ≠ chunk)
    (larger : chunk < total) : outcome.world.bytes chunk = 0 := by
  obtain ⟨sizes, last, pulled, fine, stored, -⟩ := writes.plain
  obtain ⟨whole, -, -⟩ := source.whole pulled
  cases sizes with
  | nil => exact absurd whole (show ¬ total = 0 by omega)
  | cons n rest =>
      obtain ⟨-, first, -⟩ := whole
      have full : n = chunk := by omega
      have more : chunk < sink.padded chunk :=
        Nat.lt_of_le_of_ne (le_padded sink chunk) (Ne.symm padded)
      have inside : chunk < (laid sink image 0 (n :: rest)).length := by
        rw [laid, full, List.length_append, length_buffer]
        omega
      have put : (emptied sink ⟨request.regular, size, initial⟩).bytes.put 0
          (laid sink image 0 (n :: rest)) (0 + chunk) =
            (laid sink image 0 (n :: rest)).getD chunk 0 := ByteMap.put_inside inside
      rw [full, laid_padding more, Nat.zero_add] at put
      rw [stored, full, Disk.bytes_store, put]

/-- A write that reports success is faithful for every image and every former content exactly
when its sources deliver in full and its sectors fit the chunks. -/
theorem success_faithful_iff {size : Nat} {initial : ByteMap}
    (ran : rufuxWriteImage plainFile request node image script ⟨request.regular, size, initial⟩ =
      some outcome) (succeeded : outcome.error = none) :
    (∀ image initial outcome, rufuxWriteImage plainFile request node image script
        ⟨request.regular, size, initial⟩ = some outcome → outcome.error = none →
      ∃ total sink, checkRequest request = .ok total ∧
        node.openTarget request total = .ok sink ∧
        Faithful request script total sink image initial outcome) ↔
      Sound request node script := by
  rw [rufuxWriteImage_eq] at *
  obtain ⟨total, checked, course⟩ := writeImage_ok.mp ⟨ran, succeeded⟩
  constructor
  · intro faithful
    obtain ⟨_, sink, same, opened, found⟩ := faithful image initial outcome ran succeeded
    rw [checked] at same
    cases same
    have writes : request.options.dryRun = false := by
      rcases course with ⟨dry, -, pulled⟩ | ⟨real, -⟩
      · obtain ⟨again, fine⟩ := writeImage_ok.mpr ⟨total, checked, .inl ⟨dry, rfl, pulled⟩⟩
        obtain ⟨_, _, same, -, wrong⟩ := faithful (fun _ => 1) ByteMap.zeros _ again fine
        rw [checked] at same
        cases same
        have copied := wrong.copied 0 (Nat.pos_of_ne_zero (checkRequest_ne_zero checked))
        cases copied
      · exact real
    have only : ∀ other, checkRequest request = .ok other → other = total := by
      intro other same
      rw [checked] at same
      cases same
      rfl
    refine ⟨writes, ?_, ?_, ?_⟩
    · intro other same
      rw [only other same]
      exact found.source
    · intro verify other same
      rw [only other same]
      exact (found.reread verify).1
    · intro other sink' same opened'
      rw [only other same] at opened' ⊢
      rw [opened] at opened'
      cases opened'
      by_contra unfit
      obtain ⟨padded, larger⟩ := not_or.mp unfit
      rcases course with ⟨dry, -⟩ | ⟨real, yes, _, opened', wrote⟩
      · rw [writes] at dry
        cases dry
      · rw [opened] at opened'
        cases opened'
        obtain ⟨kind, pads⟩ := openTarget_ok opened
        have sector : sink.sector ≠ none := fun plain => padded (padded_plain plain chunk)
        have device : sink.regular = false := (pads sector).1
        obtain ⟨again, writes'⟩ := wrote.shape (fun _ => 1) ByteMap.zeros
          found.source (fun verify => (found.reread verify).1) ⟨device, kind ▸ device⟩
        obtain ⟨ran', fine⟩ := writeImage_ok.mpr
          ⟨total, checked, .inr ⟨real, yes, sink, opened, writes'⟩⟩
        obtain ⟨_, _, same, -, wrong⟩ := faithful (fun _ => 1) ByteMap.zeros _ ran' fine
        rw [checked] at same
        cases same
        have copied := wrong.copied chunk (by omega)
        rw [writes'.shifted found.source padded (by omega)] at copied
        cases copied
  · intro sound image initial outcome ran succeeded
    obtain ⟨_, same, course⟩ := writeImage_ok.mp ⟨ran, succeeded⟩
    rw [checked] at same
    cases same
    rcases course with ⟨dry, -⟩ | ⟨-, -, sink, opened, writes⟩
    · rw [sound.writes] at dry
      cases dry
    · exact ⟨total, sink, checked, opened, Writes.faithful opened writes
        (sound.source total checked) (fun verify => sound.reread verify total checked)
        (sound.sectors total sink checked opened)⟩

def smallRequest : Request where
  src := "image"
  dst := "target"
  options := ⟨false, false, false, true, true, 0⟩
  source := some ⟨true, 2, 1, 1⟩
  target := some ⟨true, 0, 1, 2⟩
  checkTarget _ allowFile := if allowFile then .ok () else .error "refused"
  fopenFails := none

def openNode : Node := .linux ⟨none, false, none⟩

/-- A course in which the source has so many bytes. -/
def courseOf (refill : Refill) : Script Empty where
  refills := [refill]
  turns := [.moved 1, .interrupted, .moved 1]
  flushed := none
  settled := []
  reopens := true
  rereads := []
  returns := []

theorem success_faithful_iff_small :
    (∀ image initial outcome, rufuxWriteImage plainFile smallRequest openNode image
        (courseOf .full) ⟨smallRequest.regular, 0, initial⟩ = some outcome → outcome.error = none →
      ∃ total sink, checkRequest smallRequest = .ok total ∧
        openNode.openTarget smallRequest total = .ok sink ∧
        Faithful smallRequest (courseOf .full) total sink image initial outcome) ↔
      Sound smallRequest openNode (courseOf .full) :=
  @success_faithful_iff smallRequest openNode (courseOf .full) ByteMap.zeros _ 0 ByteMap.zeros
    rfl rfl

/-- A source of one byte where there should be two: the copy is short and reported as done. -/
theorem short_source_succeeds :
    ¬ ∀ (request : Request) (node : Node) (script : Script Empty) (size : Nat)
      (image initial : ByteMap) (outcome : Outcome Disk),
        rufuxWriteImage plainFile request node image script ⟨request.regular, size, initial⟩ =
          some outcome → outcome.error = none →
        ∃ total sink, checkRequest request = .ok total ∧
          node.openTarget request total = .ok sink ∧
          Faithful request script total sink image initial outcome := by
  intro claimed
  obtain ⟨total, sink, checked, -, faithful⟩ := claimed smallRequest openNode
    (courseOf (.ended 1)) 0 ByteMap.zeros ByteMap.zeros _ rfl rfl
  cases checked
  have sized := faithful.sized rfl
  cases sized

end Exactness

end Rufux.Imaging
