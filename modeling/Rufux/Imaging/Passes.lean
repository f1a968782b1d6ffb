import Rufux.Imaging.Writer

/-!
What a pass over the source does: the chunks it takes, the bytes the write pass leaves
behind, and the bytes the verifying pass has read.
-/

namespace Rufux.Imaging

open Library

section Chunks

variable {S F : Type} {body : S → Nat → Nat → Option (Except F S)}

/-- The loop body done for one chunk after another. -/
def Folds (body : S → Nat → Nat → Option (Except F S)) : Nat → List Nat → S → S → Prop
  | _, [], first, last => first = last
  | done, n :: rest, first, last =>
      ∃ next, body first done n = some (.ok next) ∧ Folds body (done + n) rest next last

theorem fread_position (stream : Stream) (want : Nat) (refill : Refill) :
    (stream.fread want refill).2.position = stream.position + (stream.fread want refill).1 := by
  cases refill <;> rfl

theorem fread_le (stream : Stream) (want : Nat) (refill : Refill) :
    (stream.fread want refill).1 ≤ want := by
  cases refill with
  | full => exact Nat.le_refl want
  | ended count => exact Nat.min_le_right count want
  | failed count => exact Nat.min_le_right count want

theorem fread_failed {stream : Stream} (want : Nat) (refill : Refill)
    (failed : stream.failed = true) : (stream.fread want refill).2.failed = true := by
  cases refill with
  | full => exact failed
  | ended count => exact failed
  | failed count =>
      change (stream.failed || _) = true
      rw [failed, Bool.true_or]

/-- A short `fread` has met the end of the file or an error. -/
theorem fread_short (stream : Stream) (want : Nat) (refill : Refill) (short : (stream.fread want refill).1 ≠ want) :
    (stream.fread want refill).2.ended = true ∨ (stream.fread want refill).2.failed = true := by
  cases refill with
  | full => exact absurd rfl short
  | ended count =>
      change min count want ≠ want at short
      exact .inl (decide_eq_true (by omega))
  | failed count =>
      change min count want ≠ want at short
      right
      change (stream.failed || decide (count < want)) = true
      rw [decide_eq_true (by omega), Bool.or_true]

/-- A loop that ended without a failure did its body for each chunk it took. -/
theorem forChunks_ok {refills : List Refill} {stream last : Stream} {remaining : Nat}
    {state final : S} :
    forChunks body refills stream remaining state = some (.ok (final, last)) ↔
      ∃ sizes, pull refills stream remaining = some (sizes, last) ∧
        Folds body stream.position sizes state final := by
  induction refills generalizing stream remaining state with
  | nil =>
      unfold forChunks pull
      split
      · simp [Folds, and_comm]
      · simp
  | cons refill rest ih =>
      unfold forChunks pull
      split
      · simp [Folds, and_comm]
      · have moved := fread_position stream (min chunk remaining) refill
        generalize stream.fread (min chunk remaining) refill = result at moved
        obtain ⟨n, next⟩ := result
        dsimp only at moved ⊢
        split
        · simp [Folds, and_comm]
        · cases done : body state stream.position n with
          | none => simp [Folds, done]
          | some result =>
              cases result with
              | error failure => simp [Folds, done]
              | ok state' => simp [Folds, done, ih, moved]

/-- Chunks as large as they can be that come to so many bytes. -/
def WholeOf : Nat → List Nat → Prop
  | remaining, [] => remaining = 0
  | remaining, n :: rest => remaining ≠ 0 ∧ n = min chunk remaining ∧ WholeOf (remaining - n) rest

theorem WholeOf.unique {remaining : Nat} {first second : List Nat}
    (left : WholeOf remaining first) (right : WholeOf remaining second) : first = second := by
  induction first generalizing remaining second with
  | nil =>
      cases second with
      | nil => rfl
      | cons m more => exact absurd left right.1
  | cons n rest ih =>
      cases second with
      | nil => exact absurd right left.1
      | cons m more =>
          obtain ⟨-, rfl, left⟩ := left
          obtain ⟨-, rfl, right⟩ := right
          rw [ih left right]

theorem pull_failed {refills : List Refill} {stream last : Stream} {remaining : Nat}
    {sizes : List Nat} (pulled : pull refills stream remaining = some (sizes, last))
    (failed : stream.failed = true) : last.failed = true := by
  induction refills generalizing stream remaining sizes with
  | nil =>
      unfold pull at pulled
      split at pulled
      · cases pulled
        exact failed
      · cases pulled
  | cons refill rest ih =>
      unfold pull at pulled
      split at pulled
      · cases pulled
        exact failed
      · have still := fread_failed (min chunk remaining) refill failed
        dsimp only at pulled
        split at pulled
        · cases pulled
          exact still
        · obtain ⟨⟨_, _⟩, later, same⟩ := Option.map_eq_some_iff.mp pulled
          cases same
          exact ih later still

theorem pull_ended {refills : List Refill} {stream last : Stream} {remaining : Nat}
    {sizes : List Nat} (pulled : pull refills stream remaining = some (sizes, last))
    (done : remaining = 0 ∨ stream.ended = true) : sizes = [] := by
  cases refills with
  | nil =>
      unfold pull at pulled
      rw [if_pos done] at pulled
      cases pulled
      rfl
  | cons refill rest =>
      unfold pull at pulled
      rw [if_pos done] at pulled
      cases pulled
      rfl

/-- A source that delivers all that remains without an error delivers it in whole chunks. -/
theorem pull_whole {refills : List Refill} {stream last : Stream} {remaining : Nat}
    {sizes : List Nat} (pulled : pull refills stream remaining = some (sizes, last))
    (all : sizes.sum = remaining) (fine : last.failed = false) : WholeOf remaining sizes := by
  induction refills generalizing stream remaining sizes with
  | nil =>
      unfold pull at pulled
      split at pulled
      · cases pulled
        exact all.symm
      · cases pulled
  | cons refill rest ih =>
      unfold pull at pulled
      split at pulled
      · cases pulled
        exact all.symm
      · have short := fread_short stream (min chunk remaining) refill
        have bound := fread_le stream (min chunk remaining) refill
        generalize stream.fread (min chunk remaining) refill = result at short bound pulled
        obtain ⟨n, next⟩ := result
        dsimp only at short bound pulled
        split at pulled
        · cases pulled
          exact all.symm
        · rename_i unfinished nonzero
          obtain ⟨⟨later, _⟩, remains, same⟩ := Option.map_eq_some_iff.mp pulled
          cases same
          rw [List.sum_cons] at all
          dsimp only at all
          have full : n = min chunk remaining := by
            by_contra less
            rcases short less with ended | failed
            · rw [pull_ended remains (.inr ended), List.sum_nil] at all
              omega
            · rw [pull_failed remains failed] at fine
              cases fine
          have more : later.sum = remaining - n := by omega
          exact ⟨fun none => unfinished (.inl none), full, ih remains more⟩

end Chunks

section Padding

variable (sink : Sink)

/-- The bytes that the chunks of a pass hand to `write`, one chunk after another. -/
def laid (image : ByteMap) : Nat → List Nat → List UInt8
  | _, [] => []
  | done, n :: rest =>
      image.get done n ++ List.replicate (sink.padded n - n) 0 ++ laid image (done + n) rest

/-- Bytes that a verifying pass over these chunks takes for the image. -/
def Matches (image : ByteMap) : Nat → List Nat → List UInt8 → Prop
  | _, [], bytes => bytes = []
  | done, n :: rest, bytes =>
      sink.padded n ≤ bytes.length ∧ bytes.take n = image.get done n ∧
        Matches image (done + n) rest (bytes.drop (sink.padded n))

/-- No chunk but the last is padded. -/
def PaddedLast : List Nat → Prop
  | [] => True
  | [_] => True
  | n :: m :: rest => sink.padded n = n ∧ PaddedLast (m :: rest)

variable {sink} {image : ByteMap} {done : Nat} {sizes : List Nat}

theorem le_padded (sink : Sink) (n : Nat) : n ≤ sink.padded n := by
  unfold Sink.padded
  split
  · exact Nat.le_refl n
  · split <;> omega

/-- What is added to whole sectors does not change how far they are padded. -/
theorem padded_add {n : Nat} (whole : sink.padded n = n) (more : Nat) :
    sink.padded (n + more) = n + sink.padded more := by
  unfold Sink.padded at whole ⊢
  cases sector : sink.sector with
  | none => rfl
  | some size =>
      rw [sector] at whole
      dsimp only at whole ⊢
      rcases Nat.eq_zero_or_pos size with rfl | positive
      · simp only [Nat.mod_zero, Nat.zero_sub, Nat.add_zero, ite_self]
      · have exact : n % size = 0 := by
          by_contra broken
          have less := Nat.mod_lt n positive
          rw [if_neg broken] at whole
          omega
        have same : (n + more) % size = more % size := by
          rw [Nat.add_mod, exact, Nat.zero_add, Nat.mod_mod]
        rw [same]
        split <;> omega

theorem paddedLast_of_whole {remaining : Nat} (whole : WholeOf remaining sizes)
    (fits : sink.padded chunk = chunk ∨ remaining ≤ chunk) : PaddedLast sink sizes := by
  induction sizes generalizing remaining with
  | nil => trivial
  | cons n rest ih =>
      cases rest with
      | nil => trivial
      | cons m more =>
          obtain ⟨-, size, later⟩ := whole
          have left := later.1
          have full : n = chunk := by omega
          have unpadded : sink.padded chunk = chunk := fits.resolve_right (by omega)
          exact ⟨by rw [full, unpadded], ih later (.inl unpadded)⟩

/-- Behind a chunk that is padded stand zeros. -/
theorem laid_padding {n : Nat} (short : n < sink.padded n) :
    (laid sink image done (n :: sizes)).getD n 0 = 0 := by
  have zeros : (List.replicate (sink.padded n - n) (0 : UInt8)).getD 0 0 = 0 := by
    rw [List.getD_eq_getElem _ _ (by rw [List.length_replicate]; omega), List.getElem_replicate]
  rw [laid, List.append_assoc, List.getD_append_right _ _ _ _ (Nat.le_of_eq ByteMap.length_get),
    ByteMap.length_get, Nat.sub_self,
    List.getD_append _ _ _ _ (by rw [List.length_replicate]; omega), zeros]

theorem length_laid (last : PaddedLast sink sizes) :
    (laid sink image done sizes).length = sink.padded sizes.sum := by
  induction sizes generalizing done with
  | nil =>
      rw [List.sum_nil]
      unfold Sink.padded
      split
      · rfl
      · rw [Nat.zero_mod, if_pos rfl]
        rfl
  | cons n rest ih =>
      have larger := le_padded sink n
      rw [laid, List.length_append, List.length_append, ByteMap.length_get,
        List.length_replicate, List.sum_cons]
      cases rest with
      | nil =>
          rw [List.sum_nil, Nat.add_zero, laid, List.length_nil]
          omega
      | cons m more =>
          rw [ih last.2, padded_add last.1, last.1]
          omega

theorem matches_laid : Matches sink image done sizes (laid sink image done sizes) := by
  induction sizes generalizing done with
  | nil => rfl
  | cons n rest ih =>
      have larger := le_padded sink n
      have size : (image.get done n ++ List.replicate (sink.padded n - n) (0 : UInt8)).length =
          sink.padded n := by
        rw [List.length_append, ByteMap.length_get, List.length_replicate]
        omega
      refine ⟨?_, ?_, ?_⟩
      · rw [laid, List.length_append, size]
        omega
      · rw [laid, List.append_assoc, List.take_left' ByteMap.length_get]
      · rw [laid, List.drop_left' size]
        exact ih

/-- Where only the last chunk is padded, bytes that pass for the image begin with it. -/
theorem Matches.getElem? {bytes : List UInt8} (matching : Matches sink image done sizes bytes)
    (last : PaddedLast sink sizes) {index : Nat} (inside : index < sizes.sum) :
    bytes[index]? = some (image (done + index)) := by
  induction sizes generalizing done bytes index with
  | nil => cases inside
  | cons n rest ih =>
      obtain ⟨-, same, later⟩ := matching
      rw [List.sum_cons] at inside
      by_cases first : index < n
      · rw [← List.getElem?_take_of_lt first, same, ByteMap.getElem?_get first]
      · cases rest with
        | nil => exact absurd inside (by rw [List.sum_nil]; omega)
        | cons m more =>
            have tail : (bytes.drop (sink.padded n))[index - n]? =
                some (image (done + n + (index - n))) := ih later last.2 (by omega)
            rw [last.1, List.getElem?_drop] at tail
            rw [show n + (index - n) = index by omega,
              show done + n + (index - n) = done + index by omega] at tail
            exact tail

/-- Without padding the bytes are the image itself. -/
theorem Matches.eq_get {bytes : List UInt8} (plain : sink.sector = none)
    (matching : Matches sink image done sizes bytes) : bytes = image.get done sizes.sum := by
  induction sizes generalizing done bytes with
  | nil => exact matching
  | cons n rest ih =>
      obtain ⟨-, same, later⟩ := matching
      have unpadded : sink.padded n = n := by rw [Sink.padded, plain]
      rw [unpadded] at later
      rw [List.sum_cons, ByteMap.get_append, ← same, ← ih later, List.take_append_drop]

end Padding

section Loops

variable {W E : Type} {port : Port} {file : Backing W E} {sink : Sink} {image other : ByteMap}
  {done n : Nat} {sizes : List Nat}

theorem length_buffer : (image.get done n ++
    List.replicate (sink.padded n - n) (0 : UInt8)).length = sink.padded n := by
  have larger := le_padded sink n
  rw [List.length_append, ByteMap.length_get, List.length_replicate]
  omega

theorem writeChunk_ok {first next : Writing W E} :
    writeChunk port file sink image first done n = some (.ok next) ↔
      ∃ world turns, file.writeAll port.stalls first.position
          (image.get done n ++ List.replicate (sink.padded n - n) 0) first.turns first.world 0 =
            some ⟨none, world, turns⟩ ∧
        next = ⟨world, first.position + sink.padded n, turns⟩ := by
  unfold writeChunk
  dsimp only
  rw [length_buffer]
  split
  · rename_i wrote
    simp [wrote]
  · rename_i wrote
    simp [wrote, eq_comm]
  · rename_i wrote
    simp [wrote]
  · rename_i wrote
    simp [wrote]

theorem verifyChunk_ok {first next : Verifying W E} :
    verifyChunk file sink image first done n = some (.ok next) ↔
      ∃ answers world turns, file.readFull first.position (sink.padded n) first.turns
          first.world [] = some ⟨none, answers, world, turns⟩ ∧
        (gathered answers).length = sink.padded n ∧
        (gathered answers).take n = image.get done n ∧
        next = ⟨world, first.position + sink.padded n, turns, first.answers ++ answers⟩ := by
  unfold verifyChunk
  split
  · rename_i read
    simp [read]
  · rename_i read
    simp [read]
  · rename_i answers world turns read
    dsimp only
    split
    · rename_i good
      simp only [read, Option.some.injEq, Except.ok.injEq, Fetched.mk.injEq, true_and]
      constructor
      · rintro rfl
        exact ⟨answers, world, turns, ⟨rfl, rfl, rfl⟩, good.1, good.2, by rw [good.1]⟩
      · rintro ⟨_, _, _, ⟨rfl, rfl, rfl⟩, size, _, rfl⟩
        rw [size]
    · rename_i bad
      simp only [read, Option.some.injEq, reduceCtorEq, Fetched.mk.injEq, true_and, false_iff]
      rintro ⟨_, _, _, ⟨rfl, rfl, rfl⟩, size, same, _⟩
      exact bad ⟨size, same⟩

/-- A write pass over a plain file leaves its chunks one behind the other. -/
theorem writePass_stores {first last : Writing Disk Empty}
    (ran : Folds (writeChunk port plainFile sink image) done sizes first last)
    (inside : first.world.regular = true → first.position ≤ first.world.size) :
    last.world = first.world.store first.position (laid sink image done sizes) := by
  induction sizes generalizing done first with
  | nil =>
      cases ran
      exact (Disk.store_nil inside).symm
  | cons n rest ih =>
      obtain ⟨next, wrote, later⟩ := ran
      obtain ⟨world, turns, moved, rfl⟩ := writeChunk_ok.mp wrote
      have stored := writeAll_plain moved rfl (Nat.zero_le _) inside
      rw [List.drop_zero, Nat.add_zero] at stored
      dsimp only at stored
      have grown := ih later (fun regular => by
        have kind : first.world.regular = true := by
          rw [stored] at regular
          exact regular
        have size : world.size = max first.world.size (first.position + sink.padded n) := by
          rw [stored, Disk.size_store kind, length_buffer]
        change first.position + sink.padded n ≤ world.size
        omega)
      rw [grown, laid, ← Disk.store_append, length_buffer, stored]

/-- Whether a write pass goes through does not depend on what it writes. -/
theorem writePass_shape (other : ByteMap) {first last : Writing W E} (second : Writing W E)
    (ran : Folds (writeChunk port file sink image) done sizes first last)
    (turns : second.turns = first.turns) (position : second.position = first.position) :
    ∃ final, Folds (writeChunk port file sink other) done sizes second final := by
  induction sizes generalizing done first second with
  | nil => exact ⟨second, rfl⟩
  | cons n rest ih =>
      obtain ⟨next, wrote, later⟩ := ran
      obtain ⟨world, left, moved, rfl⟩ := writeChunk_ok.mp wrote
      have size : (other.get done n ++ List.replicate (sink.padded n - n) (0 : UInt8)).length =
          (image.get done n ++ List.replicate (sink.padded n - n) (0 : UInt8)).length := by
        rw [length_buffer, length_buffer]
      obtain ⟨world', moved'⟩ := writeAll_shape second.world moved size
      obtain ⟨final, tail⟩ := ih ⟨world', first.position + sink.padded n, left⟩ later rfl rfl
      refine ⟨final, _, writeChunk_ok.mpr ⟨world', left, ?_, rfl⟩, ?_⟩
      · rw [turns, position]
        exact moved'
      · rw [position]
        exact tail

/-- What a verifying pass that went through has read: bytes that follow each other, that pass
for the image, and that come from states that keep what the events keep. -/
theorem verifyPass_spec (kept : W → Prop) {first last : Verifying W E}
    (happens : ∀ world event, kept world → kept (file.happen world event))
    (ran : Folds (verifyChunk file sink image) done sizes first last)
    (before : kept first.world) :
    ∃ answers, last.answers = first.answers ++ answers ∧
      file.Consecutive first.position answers ∧ (∀ answer ∈ answers, kept answer.world) ∧
      Matches sink image done sizes (gathered answers) ∧ kept last.world := by
  induction sizes generalizing done first with
  | nil =>
      cases ran
      exact ⟨[], (List.append_nil _).symm, trivial, fun _ member => (nomatch member), rfl, before⟩
  | cons n rest ih =>
      obtain ⟨next, read, later⟩ := ran
      obtain ⟨answers, world, turns, fetched, size, same, rfl⟩ := verifyChunk_ok.mp read
      obtain ⟨follow, -, after, seen⟩ := readFull_spec kept happens fetched trivial (Nat.zero_le _)
        before (fun _ member => (nomatch member))
      obtain ⟨more, all, follow', seen', matching, final⟩ := ih later after
      refine ⟨answers ++ more, by rw [all, List.append_assoc],
        consecutive_append.mpr ⟨follow, ?_⟩, ?_, ?_, final⟩
      · rw [size]
        exact follow'
      · intro answer member
        rcases List.mem_append.mp member with member | member
        · exact seen answer member
        · exact seen' answer member
      · have larger := le_padded sink n
        refine ⟨?_, ?_, ?_⟩
        · rw [gathered_append, List.length_append, size]
          omega
        · rw [gathered_append, List.take_append_of_le_length (by omega), same]
        · rw [gathered_append, List.drop_left' size]
          exact matching

/-- A verifying pass that goes through on one file goes through on a file of the same size
that holds what the write pass lays down. -/
theorem verifyPass_shape {first last : Verifying Disk Empty} (second : Verifying Disk Empty)
    (ran : Folds (verifyChunk plainFile sink image) done sizes first last)
    (turns : second.turns = first.turns) (position : second.position = first.position)
    (size : second.world.size = first.world.size)
    (holds : second.world.bytes.get second.position (laid sink other done sizes).length =
      laid sink other done sizes) :
    ∃ final, Folds (verifyChunk plainFile sink other) done sizes second final := by
  induction sizes generalizing done first second with
  | nil => exact ⟨second, rfl⟩
  | cons n rest ih =>
      obtain ⟨next, read, later⟩ := ran
      obtain ⟨answers, world, left, fetched, all, same, rfl⟩ := verifyChunk_ok.mp read
      obtain ⟨finals, fetched', all'⟩ := readFull_shape fetched size (Eq.refl (gathered []).length)
      have still := (readFull_spec (· = first.world) (fun _ event => nomatch event) fetched
        trivial (Nat.zero_le _) rfl (fun _ member => (nomatch member))).2.2.1
      dsimp only at still
      obtain ⟨follow, -, -, seen⟩ := readFull_spec (· = second.world)
        (fun _ event => nomatch event) fetched' trivial (Nat.zero_le _) rfl
        (fun _ member => (nomatch member))
      have found := gathered_plain follow seen
      have buffer : (other.get done n ++ List.replicate (sink.padded n - n) (0 : UInt8)).length =
          sink.padded n := length_buffer
      rw [all', all] at found
      rw [laid, List.length_append, buffer, ByteMap.get_append] at holds
      obtain ⟨here, behind⟩ := List.append_inj holds (by rw [ByteMap.length_get, buffer])
      rw [← position, here] at found
      rw [position] at behind
      obtain ⟨final, tail⟩ := ih ⟨second.world, first.position + sink.padded n, left,
        second.answers ++ finals⟩ later rfl rfl (by rw [still]; exact size) behind
      refine ⟨final, _, verifyChunk_ok.mpr ⟨finals, second.world, left, ?_, ?_, ?_, rfl⟩, ?_⟩
      · rw [turns, position]
        exact fetched'
      · rw [all', all]
      · rw [found, List.take_left' ByteMap.length_get]
      · rw [position]
        exact tail

end Loops

end Rufux.Imaging
