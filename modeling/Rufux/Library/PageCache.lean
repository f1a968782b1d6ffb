import Rufux.Library.Transfers

/-!
A file behind a write-back page cache, over a device that need not store what is written to
it: when bytes read back are bytes of the medium.
-/

namespace Rufux.Library

/-- A device as it may be: what it fetches need not be what was stored. -/
structure Medium (σ : Type) where
  store : σ → (Nat → Option UInt8) → σ
  fetch : σ → Nat → UInt8
  store_nothing : ∀ state, store state (fun _ => none) = state

/-- What the kernel does in between with the cached bytes of some addresses. -/
inductive CacheEvent where
  | writtenBack (which : Nat → Bool)
  | dropped (which : Nat → Bool)
  | readAhead (which : Nat → Bool)

structure Cached (σ : Type) where
  regular : Bool
  size : Nat
  cache : Nat → Option UInt8
  dirty : Nat → Bool
  stored : σ

namespace Medium

variable {σ : Type} (medium : Medium σ)

/-- The bytes a reader sees: cached ones where there are any, fetched ones elsewhere. -/
def shown (file : Cached σ) (index : Nat) : UInt8 :=
  (file.cache index).getD (medium.fetch file.stored index)

def writeBack (file : Cached σ) (which : Nat → Bool) : Cached σ :=
  { file with
    stored := medium.store file.stored fun index =>
      if which index && file.dirty index then file.cache index else none
    dirty := fun index => !which index && file.dirty index }

def happen (file : Cached σ) : CacheEvent → Cached σ
  | .writtenBack which => medium.writeBack file which
  | .dropped which =>
      { file with
        cache := fun index =>
          if which index && !file.dirty index then none else file.cache index }
  | .readAhead which =>
      { file with
        cache := fun index =>
          if which index then some (medium.shown file index) else file.cache index }

/-- The file that system calls see. -/
def cachedFile : Backing (Cached σ) CacheEvent where
  truncate file := { file with size := 0, cache := fun _ => none, dirty := fun _ => false }
  write file start bytes :=
    { file with
      size := if file.regular then max file.size (start + bytes.length) else file.size
      cache := fun index =>
        if start ≤ index ∧ index < start + bytes.length then some (bytes.getD (index - start) 0)
        else file.cache index
      dirty := fun index =>
        decide (start ≤ index ∧ index < start + bytes.length) || file.dirty index }
  read file start count := ByteMap.get (medium.shown file) start (min count (file.size - start))
  flush file := medium.writeBack file fun _ => true
  happen := medium.happen
  length_read file start count := by
    rw [ByteMap.length_get]
    omega

/-- Nothing waits to be written, and this is what the medium is left with. -/
def Settled (stored : σ) (file : Cached σ) : Prop :=
  file.dirty = (fun _ => false) ∧ file.stored = stored

/-- What these reads took from the cache is what the medium has there. -/
def Honest (answers : List (Answer (Cached σ))) : Prop :=
  ∀ answer ∈ answers, ∀ index, answer.start ≤ index →
    index < answer.start + answer.bytes.length → ∀ byte, answer.world.cache index = some byte →
      byte = medium.fetch answer.world.stored index

variable {medium} {stored : σ} {file : Cached σ} {start : Nat}
  {answers : List (Answer (Cached σ))}

theorem settled_flush (file : Cached σ) :
    Settled (medium.cachedFile.flush file).stored (medium.cachedFile.flush file) :=
  ⟨rfl, rfl⟩

/-- Once everything is written back, the medium stays as it is until the next write. -/
theorem Settled.happen (settled : Settled stored file) (event : CacheEvent) :
    Settled stored (medium.happen file event) := by
  obtain ⟨clean, rfl⟩ := settled
  cases event with
  | writtenBack which =>
      refine ⟨?_, ?_⟩
      · funext index
        change (!which index && file.dirty index) = false
        rw [clean, Bool.and_false]
      · have nothing : (fun index => if which index && file.dirty index then file.cache index
            else none) = fun _ => none := by
          funext index
          rw [clean, Bool.and_false, if_neg Bool.false_ne_true]
        change medium.store file.stored _ = file.stored
        rw [nothing, medium.store_nothing]
  | dropped which => exact ⟨clean, rfl⟩
  | readAhead which => exact ⟨clean, rfl⟩

theorem Settled.foldl (settled : Settled stored file) (events : List CacheEvent) :
    Settled stored (events.foldl medium.cachedFile.happen file) := by
  induction events generalizing file with
  | nil => exact settled
  | cons event rest ih => exact ih (settled.happen event)

theorem read_shown {answer : Answer (Cached σ)} {index : Nat}
    (consecutive : medium.cachedFile.Consecutive start answers) (member : answer ∈ answers)
    (lower : answer.start ≤ index) (upper : index < answer.start + answer.bytes.length) :
    answer.bytes[index - answer.start]? = some (medium.shown answer.world index) := by
  obtain ⟨count, read⟩ := consecutive.read member
  have size : answer.bytes.length = min count (answer.world.size - answer.start) := by
    rw [read]
    exact ByteMap.length_get
  rw [read]
  change (ByteMap.get _ _ _)[_]? = _
  rw [ByteMap.getElem?_get (by omega), Nat.add_sub_cancel' lower]

/-- Reads that cover an address of a settled file have returned the medium's byte there if and
only if none of them took another one from the cache. -/
theorem honest_iff {image : ByteMap} (consecutive : medium.cachedFile.Consecutive start answers)
    (settled : ∀ answer ∈ answers, Settled stored answer.world)
    (gets : ∀ index < (gathered answers).length,
      (gathered answers)[index]? = some (image (start + index))) :
    (∀ index < (gathered answers).length, medium.fetch stored (start + index) =
      image (start + index)) ↔ medium.Honest answers := by
  constructor
  · intro same answer member index lower upper byte cached
    obtain ⟨place, inside, rfl, here⟩ := consecutive.within member lower upper
    have read := read_shown consecutive member lower upper
    rw [here, gets place inside] at read
    have found : image (start + place) = byte := by
      rw [Option.some.inj read, Medium.shown, cached]
      rfl
    rw [← found, (settled answer member).2, same place inside]
  · intro honest index inside
    obtain ⟨answer, member, lower, upper, byte⟩ := consecutive.covers inside
    have read := read_shown consecutive member lower upper
    rw [byte, gets index inside] at read
    rw [Option.some.inj read, Medium.shown]
    cases cached : answer.world.cache (start + index) with
    | none => rw [(settled answer member).2, Option.getD_none]
    | some kept =>
        rw [Option.getD_some, honest answer member _ lower upper kept cached,
          (settled answer member).2]

end Medium

end Rufux.Library
