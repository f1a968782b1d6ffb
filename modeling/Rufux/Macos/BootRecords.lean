import Rufux.Macos.DosBoot

/-!
What patching a boot record leaves: the same bytes by either path, and nothing changed that no
blob covers.
-/

namespace Rufux.Macos

open Library Library.Session

variable {storage : Storage} {stale : String} {secSz : Nat}

/-! ### One sector -/

/-- A stretch read, overwritten in part and written back, as far as that went, is the part
written at its own place. -/
theorem written_back {base len inner reached : Nat} {part : List UInt8}
    (inside : inner + part.length ≤ len) (within : base + len ≤ storage.size)
    (most : reached ≤ len) :
    storage.written base ((splice 0 (storage.bytes.get base len) inner part).take reached) =
      storage.written (base + inner) (part.take (reached - inner)) := by
  by_cases empty : part = []
  · subst empty
    rw [splice_nil, List.take_nil, Storage.written_nil]
    have kept : ((storage.bytes.get base len).take reached).length = reached := by
      rw [List.length_take, ByteMap.length_get, Nat.min_eq_left most]
    ext1
    · rfl
    · exact Storage.written_size_fixed (by omega)
    · funext index
      rw [Storage.written_bytes]
      by_cases covered : base ≤ index ∧ index < base + reached
      · obtain ⟨offset, rfl⟩ := Nat.exists_eq_add_of_le covered.1
        rw [ByteMap.put_inside (by omega), List.getD_eq_getElem?_getD,
          List.getElem?_take_of_lt (by omega), ByteMap.getElem?_get (by omega), Option.getD_some]
      · exact ByteMap.put_outside (by omega)
  · have length : (splice 0 (storage.bytes.get base len) inner part).length = len := by
      rw [splice_length 0 _ _ _ empty, ByteMap.length_get]
      omega
    have kept : ((splice 0 (storage.bytes.get base len) inner part).take reached).length =
        reached := by
      rw [List.length_take, length, Nat.min_eq_left most]
    have short : (part.take (reached - inner)).length = min (reached - inner) part.length :=
      List.length_take
    ext1
    · rfl
    · rw [Storage.written_size_fixed (by omega), Storage.written_size_fixed (by omega)]
    · funext index
      rw [Storage.written_bytes, Storage.written_bytes]
      by_cases covered : base ≤ index ∧ index < base + reached
      · obtain ⟨offset, rfl⟩ := Nat.exists_eq_add_of_le covered.1
        rw [ByteMap.put_inside (by omega), List.getD_eq_getElem?_getD,
          List.getElem?_take_of_lt (by omega), getElem?_splice 0 _ _ _ _ empty]
        have old : (storage.bytes.get base len)[offset]? = some (storage.bytes (base + offset)) :=
          ByteMap.getElem?_get (by omega)
        by_cases before : offset < inner
        · rw [if_pos before, old, ByteMap.put_outside (by omega)]
          rfl
        · rw [if_neg before]
          by_cases new : offset < inner + part.length
          · obtain ⟨place, rfl⟩ := Nat.exists_eq_add_of_le (Nat.le_of_not_lt before)
            rw [if_pos new, ← Nat.add_assoc, ByteMap.put_inside (by omega), Nat.add_sub_cancel_left,
              List.getD_eq_getElem?_getD, List.getElem?_take_of_lt (by omega)]
          · rw [if_neg new, old, ByteMap.put_outside (by omega)]
            rfl
      · rw [ByteMap.put_outside (by omega), ByteMap.put_outside (by omega)]

/-! ### A blob -/

variable {off : Nat} {blob : List UInt8} {what : String}

/-- The piece lies in its sector, and begins where the last one ended. -/
structure Piece.Fits (piece : Piece) (secSz off len done : Nat) : Prop where
  place : piece.secBase + piece.inSec = off + done
  inside : piece.inSec + piece.take ≤ secSz
  some : 0 < piece.take
  left : done + piece.take ≤ len
  full : piece.inSec + piece.take = secSz ∨ done + piece.take = len
  aligned : secSz ∣ piece.secBase

theorem pieceAt_fits {len done : Nat} (positive : 0 < secSz) (more : done < len)
    (word : off + done < 2 ^ 64) :
    (pieceAt secSz off len done).Fits secSz off len done := by
  have split : secSz * ((off + done) / secSz) + (off + done) % secSz = off + done :=
    Nat.div_add_mod _ _
  have small : (off + done) % secSz < secSz := Nat.mod_lt _ positive
  have commuted : (off + done) / secSz * secSz = secSz * ((off + done) / secSz) := Nat.mul_comm _ _
  unfold pieceAt
  dsimp only
  rw [Nat.mod_eq_of_lt word]
  constructor <;> dsimp only
  · omega
  · omega
  · omega
  · omega
  · omega
  · exact Nat.dvd_mul_left _ _

/-- What is left of a blob's writing: its first bytes, all of them where it ended well. Past the
offsets of the system nothing is left, and a device does not grow. -/
def Patched (storage : Storage) (off : Nat) (blob : List UInt8) (answer : Except String Unit)
    (left : Storage) : Prop :=
  ∃ reached, reached ≤ blob.length ∧ left = storage.written off (blob.take reached) ∧
    (answer = .ok () → reached = blob.length) ∧ (0 < reached → off < 2 ^ 63 + 4096) ∧
      (storage.grows = false → left.size = storage.size)

theorem patched_more {done reached : Nat} {piece : Piece}
    (fits : piece.Fits secSz off blob.length done)
    (within : piece.secBase + secSz ≤ (storage.written off (blob.take done)).size)
    (most : reached ≤ secSz) :
    (storage.written off (blob.take done)).written piece.secBase
        ((splice 0 ((storage.written off (blob.take done)).bytes.get piece.secBase secSz)
          piece.inSec ((blob.drop done).take piece.take)).take reached) =
      storage.written off (blob.take (done + min (reached - piece.inSec) piece.take)) := by
  have left := fits.left
  have inside := fits.inside
  have part : ((blob.drop done).take piece.take).length = piece.take := by
    rw [List.length_take, List.length_drop]
    omega
  have place : piece.secBase + piece.inSec = off + (blob.take done).length := by
    rw [List.length_take, fits.place]
    omega
  rw [written_back (by omega) within most, place, Storage.written_append, List.take_take,
    List.take_add]

theorem Piece.Fits.buffer {len done : Nat} {piece : Piece}
    (fits : piece.Fits secSz off blob.length done) (length : len = secSz) (map : ByteMap) :
    (splice 0 (map.get piece.secBase len) piece.inSec
      ((blob.drop done).take piece.take)).length = secSz := by
  have left := fits.left
  have inside := fits.inside
  have some := fits.some
  have part : ((blob.drop done).take piece.take).length = piece.take := by
    rw [List.length_take, List.length_drop]
    omega
  have nonempty : (blob.drop done).take piece.take ≠ [] :=
    List.length_pos_iff.mp (by omega)
  rw [splice_length 0 _ _ _ nonempty, ByteMap.length_get, part]
  omega

/-- So many bytes are written, inside a device and inside the offsets of the system. -/
structure Started (storage : Storage) (off : Nat) (blob : List UInt8) (done : Nat) : Prop where
  bound : done ≤ blob.length
  low : 0 < done → off + done < 2 ^ 63 + 4096
  fixed : storage.grows = false → (storage.written off (blob.take done)).size = storage.size

theorem started_none : Started storage off blob 0 :=
  ⟨Nat.zero_le _, by omega, fun _ => by rw [List.take_zero, Storage.written_nil]⟩

theorem patched_kept {done : Nat} {why : String} (started : Started storage off blob done) :
    Patched storage off blob (.error why) (storage.written off (blob.take done)) :=
  ⟨done, started.bound, rfl, by rintro ⟨⟩, fun some => by have := started.low some; omega,
    started.fixed⟩

theorem patched_whole {done : Nat} (full : blob.length ≤ done)
    (started : Started storage off blob done) :
    Patched storage off blob (.ok ()) (storage.written off (blob.take done)) :=
  ⟨done, started.bound, rfl, fun _ => Nat.le_antisymm started.bound full,
    fun some => by have := started.low some; omega, started.fixed⟩

theorem blobSectors_leaves (positive : 0 < secSz) (most : secSz ≤ 4096) (word : off < 2 ^ 64)
    {fuel done : Nat} (started : Started storage off blob done) :
    (blobSectors stale secSz off blob what fuel done).Leaves (storage.written off (blob.take done))
      (Patched storage off blob) := by
  induction fuel generalizing done with
  | zero =>
      unfold blobSectors
      by_cases full : blob.length ≤ done
      · rw [if_pos full]
        exact leaves_give (patched_whole full started)
      · rw [if_neg full]
        exact leaves_unended
  | succ fuel ih =>
      unfold blobSectors
      by_cases full : blob.length ≤ done
      · rw [if_pos full]
        exact leaves_give (patched_whole full started)
      · rw [if_neg full]
        have fits : (pieceAt secSz off blob.length done).Fits secSz off blob.length done :=
          pieceAt_fits positive (by omega) (by
            rcases Nat.eq_zero_or_pos done with rfl | some
            · omega
            · have := started.low some
              omega)
        dsimp only
        generalize pieceAt secSz off blob.length done = piece at fits
        have read := @preadExact_leaves (storage.written off (blob.take done)) stale secSz
          piece.secBase [] rfl (Nat.zero_le _)
        have fitsLeft := fits.left
        have fitsPlace := fits.place
        have fitsInside := fits.inside
        refine read.tried ?_ ?_
        · rintro why _ ⟨rfl, -⟩
          exact patched_kept started
        · rintro sec _ ⟨rfl, held⟩
          obtain ⟨rfl, within⟩ := held sec rfl
          obtain ⟨within, low⟩ := within positive
          rw [List.length_nil, Nat.add_zero] at low
          have buffer := fits.buffer rfl (storage.written off (blob.take done)).bytes
          have next : ∀ reached, reached ≤ secSz → Started storage off blob
              (done + min (reached - piece.inSec) piece.take) := fun reached short => by
            refine ⟨by omega, fun _ => by omega, fun device => ?_⟩
            rw [← patched_more fits within short, Storage.written_size_fixed (by
              rw [List.length_take]
              omega), started.fixed device]
          refine pwriteAll_leaves.tried ?_ ?_
          · rintro why _ ⟨reached, short, rfl, -, -, -⟩
            rw [patched_more fits within (by omega)]
            exact patched_kept (next reached (by omega))
          · rintro _ _ ⟨reached, short, rfl, whole, -, -⟩
            have all := whole rfl
            have fitted := next reached (by omega)
            rw [patched_more fits within (by omega)]
            rw [Nat.min_eq_right (by omega)] at fitted ⊢
            exact ih fitted

/-- On a device of whole sectors a blob reaches as far as the device does. -/
def Reaches (storage : Storage) (off : Nat) (blob : List UInt8) (answer : Except String Unit)
    (left : Storage) : Prop :=
  left = storage.written off (blob.take (storage.size - off)) ∧
    (answer = .ok () ↔ blob = [] ∨ off + blob.length ≤ storage.size)

theorem reaches_whole {done : Nat} (full : done = blob.length)
    (started : done = 0 ∨ off + done ≤ storage.size) :
    Reaches storage off blob (.ok ()) (storage.written off (blob.take done)) := by
  rcases started with none | within
  · have empty : blob = [] := List.length_eq_zero_iff.mp (by omega)
    subst empty
    exact ⟨by rw [List.take_nil, List.take_nil], fun _ => .inl rfl, fun _ => rfl⟩
  · refine ⟨?_, fun _ => .inr (by omega), fun _ => rfl⟩
    rw [List.take_of_length_le (by omega), List.take_of_length_le (by omega)]

theorem blobSectors_ends (positive : 0 < secSz) (word : off < 2 ^ 64)
    (device : storage.grows = false) (limit : storage.size < 2 ^ 63) (whole : secSz ∣ storage.size)
    {fuel done : Nat} (bound : done ≤ blob.length) (enough : blob.length ≤ done + fuel)
    (started : done = 0 ∨ off + done ≤ storage.size) :
    (blobSectors stale secSz off blob what fuel done).Ends (storage.written off (blob.take done))
      (fuel * (2 * secSz)) (Reaches storage off blob) := by
  induction fuel generalizing done with
  | zero =>
      unfold blobSectors
      rw [if_pos (by omega)]
      exact (ends_give (reaches_whole (by omega) started)).weaken (by omega) fun _ _ ok => ok
  | succ fuel ih =>
      unfold blobSectors
      by_cases full : blob.length ≤ done
      · rw [if_pos full]
        exact (ends_give (reaches_whole (by omega) started)).weaken (by omega) fun _ _ ok => ok
      · rw [if_neg full]
        have fits : (pieceAt secSz off blob.length done).Fits secSz off blob.length done :=
          pieceAt_fits positive (by omega) (by omega)
        dsimp only
        generalize pieceAt secSz off blob.length done = piece at fits
        have same : (storage.written off (blob.take done)).size = storage.size := by
          rcases started with rfl | within
          · rw [List.take_zero, Storage.written_nil]
          · exact Storage.written_size_fixed (by
              rw [List.length_take]
              omega)
        have read := (@preadExact_ends (storage.written off (blob.take done)) stale secSz
          piece.secBase [] (by omega)).with_leaves (preadExact_leaves rfl (Nat.zero_le _))
        have fitsLeft := fits.left
        have fitsPlace := fits.place
        have fitsInside := fits.inside
        have fitsSome := fits.some
        have share : (fuel + 1) * (2 * secSz) = secSz + (secSz + fuel * (2 * secSz)) := by ring
        rw [share]
        refine (read.weaken (Nat.sub_le _ _) fun _ _ ok => ok).tried ?_ ?_
        · rintro why _ ⟨short, rfl, -⟩
          have past : ¬ piece.secBase + secSz ≤ storage.size := by
            intro within
            obtain ⟨bytes, given⟩ := short (by omega)
            cases given
          have behind : storage.size ≤ piece.secBase := by
            obtain ⟨sectors, total⟩ := whole
            obtain ⟨sector, base⟩ := fits.aligned
            rw [total, base] at past ⊢
            refine Nat.mul_le_mul_left _ (Nat.le_of_not_lt fun before => past ?_)
            rw [← Nat.mul_succ]
            exact Nat.mul_le_mul_left _ before
          refine ⟨?_, by rintro ⟨⟩, fun within => ?_⟩
          · congr 2
            omega
          · rcases within with nothing | within
            · rw [nothing, List.length_nil] at full
              omega
            · omega
        · rintro sec _ ⟨-, rfl, held⟩
          obtain ⟨rfl, within⟩ := held sec rfl
          obtain ⟨within, low⟩ := within positive
          have buffer := fits.buffer rfl (storage.written off (blob.take done)).bytes
          have write := (@pwriteAll_ends (storage.written off (blob.take done)) stale
            piece.secBase _ device (by omega)).weaken (Nat.le_of_eq buffer) fun _ _ ok => ok
          refine write.tried ?_ ?_
          · rintro why _ ⟨-, good⟩
            cases good.mpr (.inr (by omega))
          · rintro _ _ ⟨rfl, good⟩
            have all : ∀ bytes : List UInt8, bytes.length = secSz →
                bytes.take ((storage.written off (blob.take done)).size - piece.secBase) =
                  bytes.take secSz := fun bytes length => by
              rw [List.take_of_length_le (by omega), List.take_of_length_le (by omega)]
            rw [all _ buffer, patched_more fits within (Nat.le_refl _),
              Nat.min_eq_right (by omega)]
            exact ih (by omega) (by omega) (by omega)

variable {patch : Patch} {isDev : Bool}

theorem blobWrite_leaves (positive : 0 < secSz) (most : secSz ≤ 4096)
    (word : patch.off < 2 ^ 64) :
    (blobWrite stale isDev secSz patch).Leaves storage (Patched storage patch.off patch.blob) := by
  have start : storage.written patch.off (patch.blob.take 0) = storage := by
    rw [List.take_zero, Storage.written_nil]
  unfold blobWrite
  by_cases empty : patch.blob.length = 0
  · rw [if_pos empty]
    refine leaves_give ?_
    have whole := patched_whole (Nat.le_of_eq empty) (@started_none storage patch.off patch.blob)
    rwa [start] at whole
  · rw [if_neg empty]
    cases isDev with
    | true =>
        rw [if_pos rfl]
        have leaves := @blobSectors_leaves storage stale secSz patch.off patch.blob patch.what
          positive most word patch.blob.length 0 started_none
        rwa [start] at leaves
    | false =>
        rw [if_neg (by decide)]
        refine pwriteAll_leaves.orElse ?_ ?_
        · rintro why left ⟨reached, short, same, -, low, fixed⟩
          exact ⟨reached, short, same, by rintro ⟨⟩, fun some => by have := low some; omega, fixed⟩
        · rintro _ left ⟨reached, short, same, whole, low, fixed⟩
          exact ⟨reached, short, same, whole, fun some => by have := low some; omega, fixed⟩

theorem blobWrite_ends (positive : 0 < secSz) (word : patch.off < 2 ^ 64)
    (device : storage.grows = false) (limit : storage.size < 2 ^ 63)
    (whole : secSz ∣ storage.size) :
    (blobWrite stale isDev secSz patch).Ends storage (patch.blob.length * (2 * secSz))
      (Reaches storage patch.off patch.blob) := by
  have start : storage.written patch.off (patch.blob.take 0) = storage := by
    rw [List.take_zero, Storage.written_nil]
  unfold blobWrite
  by_cases empty : patch.blob.length = 0
  · rw [if_pos empty]
    have reaches := @reaches_whole storage patch.off patch.blob 0 empty.symm (.inl rfl)
    rw [start] at reaches
    exact (ends_give reaches).weaken (Nat.zero_le _) fun _ _ ok => ok
  · rw [if_neg empty]
    cases isDev with
    | true =>
        rw [if_pos rfl]
        have ends := @blobSectors_ends storage stale secSz patch.off patch.blob patch.what
          positive word device limit whole patch.blob.length 0 (Nat.zero_le _) (by omega)
          (.inl rfl)
        rwa [start] at ends
    | false =>
        rw [if_neg (by decide)]
        have ends := (@pwriteAll_ends storage stale patch.off patch.blob device limit).weaken
          (Nat.le_mul_of_pos_right _ (show 0 < 2 * secSz by omega)) fun _ _ ok => ok
        refine ends.orElse ?_ fun _ left ok => ok
        rintro why left ⟨same, good⟩
        refine ⟨same, by rintro ⟨⟩, fun within => ?_⟩
        cases good.mpr within

/-! ### A record -/

def Patch.Covers (patch : Patch) (index : Nat) : Prop :=
  patch.off ≤ index ∧ index < patch.off + patch.blob.length

/-- Nothing changed that no blob covers, and all blobs stand there where it ended well. -/
def Framed (storage : Storage) (patches : List Patch) (answer : Except String Unit)
    (left : Storage) : Prop :=
  (∀ index, (∀ patch ∈ patches, ¬patch.Covers index) → left.bytes index = storage.bytes index) ∧
    (storage.grows = false → left.size = storage.size) ∧
      (answer = .ok () →
        left = patches.foldl (fun storage patch => storage.written patch.off patch.blob) storage)

theorem patched_outside {answer : Except String Unit} {left : Storage} {index : Nat}
    (patched : Patched storage patch.off patch.blob answer left) (outside : ¬patch.Covers index) :
    left.bytes index = storage.bytes index := by
  obtain ⟨reached, short, rfl, -⟩ := patched
  have length : (patch.blob.take reached).length = reached := by
    rw [List.length_take, Nat.min_eq_left short]
  unfold Patch.Covers at outside
  exact ByteMap.put_outside (by omega)

theorem patched_ok {left : Storage} (patched : Patched storage patch.off patch.blob (.ok ()) left) :
    left = storage.written patch.off patch.blob := by
  obtain ⟨reached, -, rfl, whole, -⟩ := patched
  rw [whole rfl, List.take_length]

theorem blobWrites_leaves (positive : 0 < secSz) (most : secSz ≤ 4096) {patches : List Patch}
    (words : ∀ patch ∈ patches, patch.off < 2 ^ 64) :
    (blobWrites stale isDev secSz patches).Leaves storage (Framed storage patches) := by
  induction patches generalizing storage with
  | nil => exact leaves_give ⟨fun _ _ => rfl, fun _ => rfl, fun _ => rfl⟩
  | cons patch rest ih =>
      obtain ⟨word, words⟩ := List.forall_mem_cons.mp words
      unfold blobWrites
      refine (blobWrite_leaves positive most word).andThen ?_ ?_
      · intro why left patched
        refine ⟨fun index outside => ?_, ?_, by rintro ⟨⟩⟩
        · exact patched_outside patched (outside patch List.mem_cons_self)
        · obtain ⟨_, _, _, _, _, fixed⟩ := patched
          exact fixed
      · rintro _ mid patched
        refine (ih words).weaken fun answer left framed => ?_
        obtain ⟨kept, same, done⟩ := framed
        refine ⟨fun index outside => ?_, fun device => ?_, fun good => ?_⟩
        · obtain ⟨first, later⟩ := List.forall_mem_cons.mp outside
          rw [kept index later, patched_outside patched first]
        · obtain ⟨_, _, grown, _, _, fixed⟩ := patched
          rw [same (by rw [grown]; exact device), fixed device]
        · rw [done good, patched_ok patched]
          rfl

theorem openBufferedTarget_sector {run : BufferedOpen}
    (opened : openBufferedTarget run = .ok (isDev, secSz)) : 512 ≤ secSz ∧ secSz ≤ 4096 := by
  have clamped : ∀ size : Nat, 512 ≤ (if size < 512 ∨ 4096 < size then 512 else size) ∧
      (if size < 512 ∨ 4096 < size then 512 else size) ≤ 4096 := fun size => by
    split <;> omega
  unfold openBufferedTarget at opened
  split at opened
  · cases opened
  · split at opened
    · cases opened
    · split at opened
      · cases opened
      · dsimp only at opened
        split at opened
        · cases opened
          exact clamped _
        · split at opened
          · split at opened
            · cases opened
            · split at opened
              · cases opened
                exact clamped _
              · cases opened
          · cases opened

/-- A record's parts, written where it begins. -/
def recordAt (storage : Storage) (base : Nat) (parts : List Patch) : Storage :=
  parts.foldl (fun storage part => storage.written (base + part.off) part.blob) storage

/-- Only bytes that a part covers changed, and the parts stand there where it ended well. -/
def RecordPatched (storage : Storage) (base : Nat) (parts : List Patch) (answer : Except String Unit)
    (left : Storage) : Prop :=
  (∀ index, left.bytes index ≠ storage.bytes index →
      ∃ part ∈ parts, base + part.off ≤ index ∧ index < base + part.off + part.blob.length) ∧
    (storage.grows = false → left.size = storage.size) ∧
      (answer = .ok () → left = recordAt storage base parts)

theorem recorded_refused {base : Nat} {parts : List Patch} {why : String} :
    RecordPatched storage base parts (.error why) storage :=
  ⟨fun _ differs => absurd rfl differs, fun _ => rfl, by rintro ⟨⟩⟩

theorem framed_recorded {base : Nat} {parts : List Patch} {answer : Except String Unit}
    {left : Storage} (low : ∀ part ∈ parts, base + part.off < 2 ^ 64)
    (framed : Framed storage (parts.map (Patch.shifted base)) answer left) :
    RecordPatched storage base parts answer left := by
  obtain ⟨kept, fixed, done⟩ := framed
  refine ⟨fun index differs => ?_, fixed, fun good => ?_⟩
  · by_contra outside
    refine differs (kept index fun patch member covers => outside ?_)
    obtain ⟨part, inside, rfl⟩ := List.mem_map.mp member
    unfold Patch.Covers Patch.shifted at covers
    rw [Nat.mod_eq_of_lt (low part inside)] at covers
    exact ⟨part, inside, covers⟩
  · rw [done good, List.foldl_map, recordAt]
    refine List.foldl_ext _ _ _ fun storage part inside => ?_
    rw [Patch.shifted, Nat.mod_eq_of_lt (low part inside)]

theorem bootRecord_leaves {base : Nat} {run : BufferedOpen} {synced : Except String Unit}
    {record : String} {first : Patch} {rest : List Patch} (word : base < 2 ^ 64)
    (begins : first.off = 0) (some : first.blob ≠ [])
    (near : ∀ part ∈ first :: rest, part.off < 4096) :
    (bootRecord stale run ((first :: rest).map (Patch.shifted base)) synced record).Leaves storage
      (RecordPatched storage base (first :: rest)) := by
  unfold bootRecord
  cases opened : openBufferedTarget run with
  | error why => exact leaves_refuse recorded_refused
  | ok target =>
      obtain ⟨isDev, secSz⟩ := target
      obtain ⟨least, most⟩ := openBufferedTarget_sector opened
      have writes : (blobWrites stale isDev secSz
          ((first :: rest).map (Patch.shifted base))).Leaves storage
          (RecordPatched storage base (first :: rest)) := by
        by_cases low : base < 2 ^ 63 + 4096
        · refine (blobWrites_leaves (by omega) most fun patch member => ?_).weaken
            fun answer left framed => framed_recorded (fun part inside => ?_) framed
          · obtain ⟨part, -, rfl⟩ := List.mem_map.mp member
            exact Nat.mod_lt _ (by omega)
          · have := near part inside
            omega
        · rw [List.map_cons]
          unfold blobWrites
          -- Past the offsets of the system the first part already fails.
          have place : (first.shifted base).off = base := by
            rw [Patch.shifted, begins, Nat.add_zero, Nat.mod_eq_of_lt word]
          refine (blobWrite_leaves (by omega) most (by omega)).andThen ?_ ?_
          · rintro why _ ⟨reached, -, rfl, -, high, -⟩
            have none : reached = 0 := by
              by_contra positive
              have := high (by omega)
              omega
            rw [none, List.take_zero, Storage.written_nil]
            exact recorded_refused
          · rintro _ left ⟨reached, -, -, whole, high, -⟩
            have length : 0 < (first.shifted base).blob.length := List.length_pos_iff.mpr some
            have := whole rfl
            have := high (by omega)
            omega
      refine writes.andThen (fun why left kept => kept) fun _ left recorded => ?_
      cases synced with
      | ok => exact leaves_give recorded
      | error why => exact leaves_refuse ⟨recorded.1, recorded.2.1, by rintro ⟨⟩⟩

/-! ### The three records -/

def KeptIn (storage left : Storage) (low high : Nat) : Prop :=
  ∀ index, low ≤ index → index < high → left.bytes index = storage.bytes index

def KeptOutside (storage left : Storage) (low high : Nat) : Prop :=
  ∀ index, index < low ∨ high ≤ index → left.bytes index = storage.bytes index

theorem labelField_length (label11 : List UInt8) : (labelField label11).length = 11 := by
  have short : (((label11.takeWhile (· ≠ 0)).take 11).map toupper).length ≤ 11 := by
    rw [List.length_map, List.length_take]
    omega
  unfold labelField
  rw [List.length_append, List.length_replicate]
  omega

variable {blobs : BootBlobs} {run : BufferedOpen} {synced : Except String Unit} {base : Nat}
  {label11 : List UInt8}

/-- A boot record with a parameter block of its own at `[low, high)`, all of it before `end_`. -/
theorem recorded_block {parts : List Patch} {answer : Except String Unit} {left : Storage}
    {low high end_ : Nat} (recorded : RecordPatched storage base parts answer left)
    (around : ∀ part ∈ parts, (part.off + part.blob.length ≤ low ∨ high ≤ part.off) ∧
      part.off + part.blob.length ≤ end_) :
    RecordPatched storage base parts answer left ∧ KeptIn storage left (base + low) (base + high) ∧
      KeptOutside storage left base (base + end_) := by
  refine ⟨recorded, fun index lower upper => ?_, fun index outside => ?_⟩ <;> by_contra differs
  · obtain ⟨part, member, first, last⟩ := recorded.1 index differs
    have := (around part member).1
    omega
  · obtain ⟨part, member, first, last⟩ := recorded.1 index differs
    have := (around part member).2
    omega

theorem rufuxDosPbrFd32_leaves (word : base < 2 ^ 64) :
    (rufuxDosPbrFd32 stale blobs run base label11 synced).Leaves storage fun answer left =>
      RecordPatched storage base (fat32Parts blobs label11) answer left ∧
        KeptIn storage left (base + 0x0B) (base + 0x47) ∧
          KeptOutside storage left base (base + 3 * 512) := by
  have label := labelField_length label11
  refine (bootRecord_leaves word rfl ?_ ?_).weaken fun answer left recorded =>
    recorded_block recorded ?_
  · exact List.length_pos_iff.mp (by rw [Vector.length_toList]; decide)
  · simp
  · simp [fat32Parts, label]

theorem rufuxNtfsPbr_leaves (word : base < 2 ^ 64) :
    (rufuxNtfsPbr stale blobs run base synced).Leaves storage fun answer left =>
      RecordPatched storage base (ntfsParts blobs) answer left ∧
        KeptIn storage left (base + 0x0B) (base + 0x54) ∧
          KeptOutside storage left base (base + 9 * 512) := by
  refine (bootRecord_leaves word rfl ?_ ?_).weaken fun answer left recorded =>
    recorded_block recorded ?_
  · exact List.length_pos_iff.mp (by rw [Vector.length_toList]; decide)
  · simp
  · simp [ntfsParts]

theorem rufuxDosMbr_leaves :
    (rufuxDosMbr stale blobs run synced).Leaves storage fun answer left =>
      RecordPatched storage 0 (mbrParts blobs) answer left ∧ KeptIn storage left 440 512 ∧
        KeptOutside storage left 0 512 := by
  refine (bootRecord_leaves (by decide) rfl ?_ ?_).weaken fun answer left recorded => ?_
  · exact List.length_pos_iff.mp (by simp)
  · simp
  · have block := @recorded_block _ 0 _ _ _ 440 512 512 recorded (by simp)
    rw [Nat.zero_add, Nat.zero_add] at block
    exact block

/-- Both paths of `blob_write` leave the same bytes: where no call fails they end alike, and
wherever both succeed. Whatever fails, the records change only bytes that their parts cover: the
parameter blocks and the disk signature with the partition table stay. -/
theorem boot_records_patched {patch : Patch} (least : 512 ≤ secSz) (most : secSz ≤ 4096)
    (device : storage.grows = false) (limit : storage.size < 2 ^ 63)
    (whole : secSz ∣ storage.size) (word : patch.off < 2 ^ 64) :
    (∀ slow fast, Granted slow → Granted fast → patch.blob.length * (2 * secSz) ≤ moves slow →
        patch.blob.length * (2 * secSz) ≤ moves fast →
        ∃ answer answer' left later later',
          blobWrite stale true secSz patch storage slow = some (answer, left, later) ∧
            blobWrite stale false secSz patch storage fast = some (answer', left, later') ∧
              left = storage.written patch.off (patch.blob.take (storage.size - patch.off)) ∧
                (answer = .ok () ↔ answer' = .ok ()) ∧
                  (answer = .ok () ↔
                    patch.blob = [] ∨ patch.off + patch.blob.length ≤ storage.size)) ∧
      (∀ slow fast left left' later later',
        blobWrite stale true secSz patch storage slow = some (.ok (), left, later) →
        blobWrite stale false secSz patch storage fast = some (.ok (), left', later') →
        left = left') ∧
      ∀ (old : Storage) blobs run synced label11 base, base < 2 ^ 64 →
        ((rufuxDosPbrFd32 stale blobs run base label11 synced).Leaves old fun answer left =>
          RecordPatched old base (fat32Parts blobs label11) answer left ∧
            KeptIn old left (base + 0x0B) (base + 0x47) ∧
              KeptOutside old left base (base + 3 * 512)) ∧
          ((rufuxNtfsPbr stale blobs run base synced).Leaves old fun answer left =>
            RecordPatched old base (ntfsParts blobs) answer left ∧
              KeptIn old left (base + 0x0B) (base + 0x54) ∧
                KeptOutside old left base (base + 9 * 512)) ∧
            (rufuxDosMbr stale blobs run synced).Leaves old fun answer left =>
              RecordPatched old 0 (mbrParts blobs) answer left ∧ KeptIn old left 440 512 ∧
                KeptOutside old left 0 512 := by
  have positive : 0 < secSz := by omega
  refine ⟨fun slow fast grantedSlow grantedFast enoughSlow enoughFast => ?_,
    fun slow fast left left' later later' ranSlow ranFast => ?_,
    fun old blobs run synced label11 base small =>
      ⟨rufuxDosPbrFd32_leaves small, rufuxNtfsPbr_leaves small, rufuxDosMbr_leaves⟩⟩
  · obtain ⟨answer, left, later, ran, -, -, same, good⟩ :=
      @blobWrite_ends storage stale secSz patch true positive word device limit whole slow
        grantedSlow enoughSlow
    obtain ⟨answer', left', later', ran', -, -, same', good'⟩ :=
      @blobWrite_ends storage stale secSz patch false positive word device limit whole fast
        grantedFast enoughFast
    rw [same] at ran
    rw [same'] at ran'
    exact ⟨answer, answer', _, later, later', ran, ran', rfl, good.trans good'.symm, good⟩
  · rw [patched_ok (blobWrite_leaves positive most word _ _ _ _ ranSlow),
      patched_ok (blobWrite_leaves positive most word _ _ _ _ ranFast)]

/-- Two empty sectors, and a blob across their border. -/
def twoSectors : Storage := ⟨false, 1024, ByteMap.zeros, fun _ _ => rfl⟩

def acrossBorder : Patch := ⟨510, [0x55, 0xaa, 0x77], "mark"⟩

theorem boot_records_patched_across : ∃ left later later',
    blobWrite "" true 512 acrossBorder twoSectors (List.replicate 3072 (.moved 512)) =
        some (.ok (), left, later) ∧
      blobWrite "" false 512 acrossBorder twoSectors (List.replicate 3072 (.moved 512)) =
        some (.ok (), left, later') := by
  have granted : Granted (List.replicate 3072 (.moved 512)) := fun call member =>
    .inr ⟨511, List.eq_of_mem_replicate member⟩
  have enough : acrossBorder.blob.length * (2 * 512) ≤
      moves (List.replicate 3072 (.moved 512)) := by
    rw [moves_replicate]
    decide
  obtain ⟨answer, answer', left, later, later', ran, ran', -, same, good⟩ :=
    (@boot_records_patched twoSectors "" 512 acrossBorder (by decide) (by decide) rfl (by decide)
      (by decide) (by decide)).1 _ _ granted granted enough enough
  have went : answer = .ok () := good.mpr (.inr (by decide))
  have went' : answer' = .ok () := same.mp went
  subst went went'
  exact ⟨left, later, later', ran, ran'⟩

end Rufux.Macos
