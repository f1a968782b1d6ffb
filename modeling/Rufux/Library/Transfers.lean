import Rufux.Library.ByteMap

/-!
Writing and reading through a descriptor, one system call after another: what each call
meets, the loops that go on until all bytes have moved, and what a loop that ended has done.
-/

namespace Rufux.Library

/-- What one call meets: something that happens behind the file first, a signal, an error, or
at most so many bytes moving. -/
inductive Turn (E : Type) where
  | happened (event : E)
  | interrupted
  | failed (why : String)
  | moved (count : Nat)

/-- The state behind a descriptor and what calls do to it. -/
structure Backing (W E : Type) where
  truncate : W → W
  write : W → Nat → List UInt8 → W
  read : W → Nat → Nat → List UInt8
  flush : W → W
  happen : W → E → W
  length_read : ∀ world start count, (read world start count).length ≤ count

/-- Bytes that one read returned, and the state it read. -/
structure Answer (W : Type) where
  world : W
  start : Nat
  bytes : List UInt8

inductive Stop where
  | failed (why : String)
  | stalled

structure Wrote (W E : Type) where
  stop : Option (Nat × Stop)
  world : W
  turns : List (Turn E)

structure Fetched (W E : Type) where
  failed : Option String
  answers : List (Answer W)
  world : W
  turns : List (Turn E)

/-- The bytes of several reads together. -/
def gathered {W : Type} (answers : List (Answer W)) : List UInt8 :=
  answers.flatMap Answer.bytes

namespace Backing

variable {W E : Type} (file : Backing W E)

/-- Writing a buffer until all of it is written; `stalls` says that a write of nothing ends
the loop. Nothing comes back of a loop that is still running. -/
def writeAll (stalls : Bool) (start : Nat) (bytes : List UInt8) :
    List (Turn E) → W → Nat → Option (Wrote W E)
  | [], world, off => if bytes.length ≤ off then some ⟨none, world, []⟩ else none
  | turn :: rest, world, off =>
      if bytes.length ≤ off then some ⟨none, world, turn :: rest⟩
      else
        match turn with
        | .happened event => writeAll stalls start bytes rest (file.happen world event) off
        | .interrupted => writeAll stalls start bytes rest world off
        | .failed why => some ⟨some (off, .failed why), world, rest⟩
        | .moved count =>
            let count := min count (bytes.length - off)
            if stalls ∧ count = 0 then some ⟨some (off, .stalled), world, rest⟩
            else writeAll stalls start bytes rest
              (file.write world (start + off) ((bytes.drop off).take count)) (off + count)

/-- Reading until so many bytes are there or a read returns none. -/
def readFull (start want : Nat) : List (Turn E) → W → List (Answer W) → Option (Fetched W E)
  | [], world, answers =>
      if want ≤ (gathered answers).length then some ⟨none, answers, world, []⟩ else none
  | turn :: rest, world, answers =>
      if want ≤ (gathered answers).length then some ⟨none, answers, world, turn :: rest⟩
      else
        match turn with
        | .happened event => readFull start want rest (file.happen world event) answers
        | .interrupted => readFull start want rest world answers
        | .failed why => some ⟨some why, answers, world, rest⟩
        | .moved count =>
            let here := start + (gathered answers).length
            let bytes := file.read world here (min count (want - (gathered answers).length))
            if bytes = [] then some ⟨none, answers, world, rest⟩
            else readFull start want rest world (answers ++ [⟨world, here, bytes⟩])

/-- Reads that follow each other from a position. -/
def Consecutive : Nat → List (Answer W) → Prop
  | _, [] => True
  | start, answer :: rest =>
      answer.start = start ∧
        (∃ count, answer.bytes = file.read answer.world start count) ∧
        Consecutive (start + answer.bytes.length) rest

end Backing

variable {W E : Type} {file : Backing W E} {start want : Nat} {turns : List (Turn E)} {world : W}

@[simp] theorem gathered_nil : gathered ([] : List (Answer W)) = [] := rfl

@[simp] theorem gathered_cons (answer : Answer W) (rest : List (Answer W)) :
    gathered (answer :: rest) = answer.bytes ++ gathered rest := rfl

@[simp] theorem gathered_append (first second : List (Answer W)) :
    gathered (first ++ second) = gathered first ++ gathered second :=
  List.flatMap_append

theorem consecutive_append {first second : List (Answer W)} :
    file.Consecutive start (first ++ second) ↔ file.Consecutive start first ∧
      file.Consecutive (start + (gathered first).length) second := by
  induction first generalizing start with
  | nil => simp [Backing.Consecutive]
  | cons answer rest ih =>
      simp only [List.cons_append, Backing.Consecutive, ih, gathered_cons, List.length_append,
        Nat.add_assoc, and_assoc]

/-- Consecutive reads cover what they gathered: each byte of it is a byte of one of them. -/
theorem Backing.Consecutive.covers {answers : List (Answer W)} {index : Nat}
    (consecutive : file.Consecutive start answers) (inside : index < (gathered answers).length) :
    ∃ answer ∈ answers, answer.start ≤ start + index ∧
      start + index < answer.start + answer.bytes.length ∧
      answer.bytes[start + index - answer.start]? = (gathered answers)[index]? := by
  induction answers generalizing start index with
  | nil => cases inside
  | cons answer rest ih =>
      obtain ⟨begins, -, later⟩ := consecutive
      rw [gathered_cons, List.length_append] at inside
      by_cases first : index < answer.bytes.length
      · refine ⟨answer, List.mem_cons_self, by omega, by omega, ?_⟩
        rw [gathered_cons, List.getElem?_append_left first, begins, Nat.add_sub_cancel_left]
      · obtain ⟨found, member, lower, upper, same⟩ :=
          ih later (show index - answer.bytes.length < (gathered rest).length by omega)
        have shifted : start + answer.bytes.length + (index - answer.bytes.length) =
            start + index := by omega
        rw [shifted] at lower upper same
        refine ⟨found, List.mem_cons_of_mem _ member, lower, upper, ?_⟩
        rw [gathered_cons, List.getElem?_append_right (by omega), same]

/-- Each byte of one of consecutive reads is the byte gathered at its place. -/
theorem Backing.Consecutive.within {answers : List (Answer W)} {answer : Answer W} {index : Nat}
    (consecutive : file.Consecutive start answers) (member : answer ∈ answers)
    (lower : answer.start ≤ index) (upper : index < answer.start + answer.bytes.length) :
    ∃ place < (gathered answers).length, start + place = index ∧
      answer.bytes[index - answer.start]? = (gathered answers)[place]? := by
  induction answers generalizing start with
  | nil => cases member
  | cons first rest ih =>
      obtain ⟨begins, -, later⟩ := consecutive
      rw [gathered_cons, List.length_append]
      rcases List.mem_cons.mp member with rfl | member
      · refine ⟨index - answer.start, by omega, by omega, ?_⟩
        rw [List.getElem?_append_left (by omega)]
      · obtain ⟨place, inside, there, same⟩ := ih later member
        refine ⟨first.bytes.length + place, by omega, by omega, ?_⟩
        rw [same, List.getElem?_append_right (by omega), Nat.add_sub_cancel_left]

/-- Every byte of consecutive reads is a byte that the state they read returned there. -/
theorem Backing.Consecutive.read {answers : List (Answer W)} {answer : Answer W}
    (consecutive : file.Consecutive start answers) (member : answer ∈ answers) :
    ∃ count, answer.bytes = file.read answer.world answer.start count := by
  induction answers generalizing start with
  | nil => cases member
  | cons first rest ih =>
      obtain ⟨begins, reads, later⟩ := consecutive
      rcases List.mem_cons.mp member with rfl | member
      · rwa [begins]
      · exact ih later member

/-- What a loop of reads does: it goes on after the reads it found, it takes no more bytes
than it wants, and every state it meets keeps what the events keep. -/
theorem readFull_spec (kept : W → Prop) {answers : List (Answer W)} {fetched : Fetched W E}
    (happens : ∀ world event, kept world → kept (file.happen world event))
    (ran : file.readFull start want turns world answers = some fetched)
    (consecutive : file.Consecutive start answers)
    (few : (gathered answers).length ≤ want)
    (before : kept world) (seen : ∀ answer ∈ answers, kept answer.world) :
    file.Consecutive start fetched.answers ∧ (gathered fetched.answers).length ≤ want ∧
      kept fetched.world ∧ ∀ answer ∈ fetched.answers, kept answer.world := by
  induction turns generalizing world answers with
  | nil =>
      unfold Backing.readFull at ran
      split at ran
      · cases ran
        exact ⟨consecutive, few, before, seen⟩
      · cases ran
  | cons turn rest ih =>
      unfold Backing.readFull at ran
      split at ran
      · cases ran
        exact ⟨consecutive, few, before, seen⟩
      · rename_i more
        cases turn with
        | happened event =>
            exact ih ran consecutive few (happens world event before) seen
        | interrupted => exact ih ran consecutive few before seen
        | failed why =>
            cases ran
            exact ⟨consecutive, few, before, seen⟩
        | moved count =>
            dsimp only at ran
            split at ran
            · cases ran
              exact ⟨consecutive, few, before, seen⟩
            · have short := file.length_read world (start + (gathered answers).length)
                (min count (want - (gathered answers).length))
              refine ih ran ?_ ?_ before ?_
              · exact consecutive_append.mpr ⟨consecutive, rfl, ⟨_, rfl⟩, trivial⟩
              · rw [gathered_append, gathered_cons, gathered_nil, List.append_nil,
                  List.length_append]
                dsimp only
                omega
              · intro answer member
                rcases List.mem_append.mp member with member | member
                · exact seen answer member
                · rw [List.mem_singleton.mp member]
                  exact before

section Chains

variable (file)

/-- Writes of one byte that follow each other up to an end, with events between them. -/
inductive Backing.Fills (pattern : UInt8) : W → Nat → Nat → W → Prop
  | done (world : W) (stop : Nat) : Fills pattern world stop stop world
  | happened {world last : W} {off stop : Nat} (event : E)
      (later : Fills pattern (file.happen world event) off stop last) :
      Fills pattern world off stop last
  | wrote {world last : W} {off stop : Nat} (count : Nat)
      (later : Fills pattern (file.write world off (List.replicate count pattern)) (off + count)
        stop last) :
      Fills pattern world off stop last

/-- Reads that follow each other, with events between them, and all that they returned. -/
inductive Backing.Scans : W → Nat → List UInt8 → W → Prop
  | done (world : W) (off : Nat) : Scans world off [] world
  | happened {world last : W} {off : Nat} {bytes : List UInt8} (event : E)
      (later : Scans (file.happen world event) off bytes last) : Scans world off bytes last
  | read {world last : W} {off : Nat} {rest : List UInt8} (count : Nat)
      (later : Scans world (off + (file.read world off count).length) rest last) :
      Scans world off (file.read world off count ++ rest) last

variable {file} {pattern : UInt8} {middle last : W} {off stop : Nat} {bytes rest : List UInt8}

theorem Backing.Fills.trans {further : Nat} (first : file.Fills pattern world off stop middle)
    (second : file.Fills pattern middle stop further last) :
    file.Fills pattern world off further last := by
  induction first with
  | done => exact second
  | happened event _ ih => exact .happened event (ih second)
  | wrote count _ ih => exact .wrote count (ih second)

theorem Backing.Fills.le (fills : file.Fills pattern world off stop last) : off ≤ stop := by
  induction fills with
  | done => exact Nat.le_refl _
  | happened _ _ ih => exact ih
  | wrote count _ ih => exact Nat.le_of_add_right_le ih

theorem Backing.Scans.trans (first : file.Scans world off bytes middle)
    (second : file.Scans middle (off + bytes.length) rest last) :
    file.Scans world off (bytes ++ rest) last := by
  induction first with
  | done => exact second
  | happened event _ ih => exact .happened event (ih second)
  | read count _ ih =>
      rw [List.append_assoc]
      refine .read count (ih ?_)
      rw [Nat.add_assoc, ← List.length_append]
      exact second

/-- A loop of reads adds to what was gathered the bytes of reads that follow each other. -/
theorem readFull_scans {answers : List (Answer W)} {fetched : Fetched W E}
    (ran : file.readFull start want turns world answers = some fetched) :
    ∃ bytes, gathered fetched.answers = gathered answers ++ bytes ∧
      file.Scans world (start + (gathered answers).length) bytes fetched.world := by
  have stays : ∀ (answers : List (Answer W)) (world : W), ∃ bytes,
      gathered answers = gathered answers ++ bytes ∧
        file.Scans world (start + (gathered answers).length) bytes world :=
    fun answers world => ⟨[], (List.append_nil _).symm, .done _ _⟩
  induction turns generalizing world answers with
  | nil =>
      unfold Backing.readFull at ran
      split at ran
      · cases ran
        exact stays answers world
      · cases ran
  | cons turn others ih =>
      unfold Backing.readFull at ran
      split at ran
      · cases ran
        exact stays answers world
      · cases turn with
        | happened event =>
            obtain ⟨bytes, all, scans⟩ := ih ran
            exact ⟨bytes, all, .happened event scans⟩
        | interrupted => exact ih ran
        | failed why =>
            cases ran
            exact stays answers world
        | moved count =>
            dsimp only at ran
            split at ran
            · cases ran
              exact stays answers world
            · obtain ⟨bytes, all, scans⟩ := ih ran
              rw [gathered_append, gathered_cons, gathered_nil, List.append_nil] at all scans
              rw [List.length_append, ← Nat.add_assoc] at scans
              rw [List.append_assoc] at all
              exact ⟨_, all, .read _ scans⟩

end Chains

/-- What a device or a regular file holds. -/
structure Disk where
  regular : Bool
  size : Nat
  bytes : ByteMap

/-- A regular file grows under its writes, a device does not. -/
def Disk.store (disk : Disk) (start : Nat) (bytes : List UInt8) : Disk :=
  { disk with
    size := if disk.regular then max disk.size (start + bytes.length) else disk.size
    bytes := disk.bytes.put start bytes }

/-- A file that nobody else touches and that keeps what is written to it. -/
def plainFile : Backing Disk Empty where
  truncate disk := { disk with size := 0, bytes := ByteMap.zeros }
  write := Disk.store
  read disk start count := disk.bytes.get start (min count (disk.size - start))
  flush disk := disk
  happen _ event := nomatch event
  length_read disk start count := by
    rw [ByteMap.length_get]
    omega

section Plain

variable {disk other : Disk} {stalls : Bool} {bytes more : List UInt8} {off : Nat}
  {turns : List (Turn Empty)}

theorem Disk.store_nil (inside : disk.regular = true → start ≤ disk.size) :
    disk.store start [] = disk := by
  have size : (if disk.regular then max disk.size (start + 0) else disk.size) = disk.size := by
    split
    · rename_i regular
      exact Nat.max_eq_left (inside regular)
    · rfl
  rw [Disk.store, ByteMap.put_nil, List.length_nil, size]

theorem Disk.store_append : (disk.store start bytes).store (start + bytes.length) more =
    disk.store start (bytes ++ more) := by
  simp only [Disk.store, ByteMap.put_append, List.length_append]
  congr 1
  split <;> omega

theorem Disk.bytes_store : (disk.store start bytes).bytes = disk.bytes.put start bytes := rfl

theorem Disk.size_store (regular : disk.regular = true) :
    (disk.store start bytes).size = max disk.size (start + bytes.length) :=
  if_pos regular

/-- A loop of writes that moved everything has stored the rest of its buffer. -/
theorem writeAll_plain {wrote : Wrote Disk Empty}
    (ran : plainFile.writeAll stalls start bytes turns disk off = some wrote)
    (moved : wrote.stop = none) (within : off ≤ bytes.length)
    (inside : disk.regular = true → start + off ≤ disk.size) :
    wrote.world = disk.store (start + off) (bytes.drop off) := by
  induction turns generalizing disk off with
  | nil =>
      unfold Backing.writeAll at ran
      split at ran
      · rename_i all
        cases ran
        rw [List.drop_eq_nil_of_le all, Disk.store_nil inside]
      · cases ran
  | cons turn rest ih =>
      unfold Backing.writeAll at ran
      split at ran
      · rename_i all
        cases ran
        rw [List.drop_eq_nil_of_le all, Disk.store_nil inside]
      · rename_i more
        cases turn with
        | happened event => exact nomatch event
        | interrupted => exact ih ran within inside
        | failed why =>
            cases ran
            cases moved
        | moved count =>
            dsimp only at ran
            split at ran
            · cases ran
              cases moved
            · generalize bounded : min count (bytes.length - off) = size at ran
              have taken : ((bytes.drop off).take size).length = size := by
                rw [List.length_take, List.length_drop]
                omega
              have parts : (bytes.drop off).take size ++ bytes.drop (off + size) =
                  bytes.drop off := by
                rw [← List.drop_drop, List.take_append_drop]
              have later := ih ran (by omega) (fun regular => by
                have grown : (disk.store (start + off) ((bytes.drop off).take size)).size =
                    max disk.size (start + off + ((bytes.drop off).take size).length) :=
                  Disk.size_store regular
                change _ ≤ (disk.store (start + off) ((bytes.drop off).take size)).size
                omega)
              calc wrote.world
                  = (disk.store (start + off) ((bytes.drop off).take size)).store
                      (start + (off + size)) (bytes.drop (off + size)) := later
                _ = (disk.store (start + off) ((bytes.drop off).take size)).store
                      (start + off + ((bytes.drop off).take size).length)
                      (bytes.drop (off + size)) := by rw [taken, Nat.add_assoc]
                _ = disk.store (start + off) (bytes.drop off) := by rw [Disk.store_append, parts]

/-- How a loop of writes ends does not depend on what it writes, nor on what it writes to. -/
theorem writeAll_shape {W E : Type} {file : Backing W E} {stalls : Bool} {start off : Nat}
    {bytes others : List UInt8} {turns : List (Turn E)} {world : W} {wrote : Wrote W E} (other : W)
    (ran : file.writeAll stalls start bytes turns world off = some wrote)
    (same : others.length = bytes.length) :
    ∃ final, file.writeAll stalls start others turns other off =
      some ⟨wrote.stop, final, wrote.turns⟩ := by
  induction turns generalizing world other off with
  | nil =>
      unfold Backing.writeAll at ran ⊢
      rw [same]
      split at ran
      · cases ran
        rename_i all
        exact ⟨other, if_pos all⟩
      · cases ran
  | cons turn rest ih =>
      unfold Backing.writeAll at ran ⊢
      rw [same]
      split at ran
      · cases ran
        rename_i all
        exact ⟨other, if_pos all⟩
      · rename_i more
        rw [if_neg more]
        cases turn with
        | happened event => exact ih _ ran
        | interrupted => exact ih _ ran
        | failed why =>
            cases ran
            exact ⟨other, rfl⟩
        | moved count =>
            dsimp only at ran ⊢
            split at ran
            · rename_i stuck
              cases ran
              exact ⟨other, if_pos stuck⟩
            · rename_i going
              rw [if_neg going]
              exact ih _ ran

/-- Consecutive reads of a plain file gather what it holds there. -/
theorem gathered_plain {answers : List (Answer Disk)}
    (consecutive : plainFile.Consecutive start answers)
    (same : ∀ answer ∈ answers, answer.world = disk) :
    gathered answers = disk.bytes.get start (gathered answers).length := by
  induction answers generalizing start with
  | nil => rfl
  | cons answer rest ih =>
      obtain ⟨-, ⟨count, reads⟩, later⟩ := consecutive
      obtain ⟨here, rest_same⟩ := List.forall_mem_cons.mp same
      have tail := ih later rest_same
      rw [here] at reads
      have head : answer.bytes = disk.bytes.get start answer.bytes.length := by
        rw [reads]
        simp only [plainFile, ByteMap.length_get]
      rw [gathered_cons, List.length_append, ByteMap.get_append, ← head, ← tail]

/-- How a loop of reads of a plain file ends depends on the size of the file only. -/
theorem readFull_shape {answers others : List (Answer Disk)} {fetched : Fetched Disk Empty}
    (ran : plainFile.readFull start want turns disk answers = some fetched)
    (size : other.size = disk.size)
    (same : (gathered others).length = (gathered answers).length) :
    ∃ finals, plainFile.readFull start want turns other others =
        some ⟨fetched.failed, finals, other, fetched.turns⟩ ∧
      (gathered finals).length = (gathered fetched.answers).length := by
  induction turns generalizing answers others with
  | nil =>
      unfold Backing.readFull at ran ⊢
      rw [same]
      split at ran
      · cases ran
        rename_i all
        exact ⟨others, if_pos all, same⟩
      · cases ran
  | cons turn rest ih =>
      unfold Backing.readFull at ran ⊢
      rw [same]
      split at ran
      · cases ran
        rename_i all
        exact ⟨others, if_pos all, same⟩
      · rename_i more
        rw [if_neg more]
        cases turn with
        | happened event => exact nomatch event
        | interrupted => exact ih ran same
        | failed why =>
            cases ran
            exact ⟨others, rfl, same⟩
        | moved count =>
            have length (source : Disk) (here most : Nat) :
                (plainFile.read source here most).length = min most (source.size - here) :=
              ByteMap.length_get
            dsimp only at ran ⊢
            split at ran
            · rename_i nothing
              cases ran
              refine ⟨others, if_pos ?_, same⟩
              rw [← List.length_eq_zero_iff, length] at nothing ⊢
              rw [size, nothing]
            · rename_i something
              rw [if_neg]
              · exact ih ran (by simp [same, length, size])
              · intro bad
                apply something
                rw [← List.length_eq_zero_iff, length] at bad ⊢
                rw [← size, bad]

end Plain

end Rufux.Library
