import Rufux.Library.ByteMap

/-!
Reading and writing at a position, one system call after another: a file or device as its bytes,
the loops that go on until all bytes have moved, and what a sequence of such loops leaves.
-/

namespace Rufux.Library

/-- What one call meets: a signal, an error, or at most so many bytes moving. -/
inductive SysCall where
  | interrupted
  | failed (why : String)
  | moved (count : Nat)

/-- A file, which grows, or a device, which does not: its bytes, zero behind its end. -/
@[ext] structure Storage where
  grows : Bool
  size : Nat
  bytes : ByteMap
  blank : ∀ index, size ≤ index → bytes index = 0

namespace Storage

/-- The size once these bytes stand at an offset. -/
def reach (size off : Nat) (bytes : List UInt8) : Nat :=
  if bytes = [] then size else max size (off + bytes.length)

theorem le_reach (size off : Nat) (bytes : List UInt8) : size ≤ reach size off bytes := by
  unfold reach
  split
  · exact Nat.le_refl size
  · exact Nat.le_max_left _ _

theorem put_blank {size off : Nat} {map : ByteMap} {bytes : List UInt8}
    (blank : ∀ index, size ≤ index → map index = 0) (index : Nat)
    (behind : reach size off bytes ≤ index) : map.put off bytes index = 0 := by
  have same : map index = 0 := blank index (Nat.le_trans (le_reach size off bytes) behind)
  unfold reach at behind
  split at behind
  · rename_i empty
    rw [empty, ByteMap.put_nil, same]
  · rw [ByteMap.put_outside (by omega), same]

/-- The file or device with these bytes at an offset. -/
def written (storage : Storage) (off : Nat) (bytes : List UInt8) : Storage where
  grows := storage.grows
  size := reach storage.size off bytes
  bytes := storage.bytes.put off bytes
  blank := put_blank storage.blank

/-- How many bytes `pread` finds; an offset is a signed 64-bit number. -/
def readable (storage : Storage) (off count : Nat) : Nat :=
  if 2 ^ 63 ≤ off then 0 else min count (storage.size - off)

/-- How many bytes `pwrite` can place. -/
def writable (storage : Storage) (off count : Nat) : Nat :=
  if 2 ^ 63 ≤ off then 0 else if storage.grows then count else min count (storage.size - off)

@[simp] theorem written_grows (storage : Storage) (off : Nat) (bytes : List UInt8) :
    (storage.written off bytes).grows = storage.grows := rfl

@[simp] theorem written_bytes (storage : Storage) (off : Nat) (bytes : List UInt8) :
    (storage.written off bytes).bytes = storage.bytes.put off bytes := rfl

@[simp] theorem written_nil (storage : Storage) (off : Nat) : storage.written off [] = storage := by
  ext1
  · rfl
  · change reach storage.size off [] = storage.size
    exact if_pos rfl
  · exact ByteMap.put_nil

theorem written_size_fixed {storage : Storage} {off : Nat} {bytes : List UInt8}
    (inside : off + bytes.length ≤ storage.size) : (storage.written off bytes).size = storage.size := by
  change reach storage.size off bytes = storage.size
  unfold reach
  split
  · rfl
  · exact Nat.max_eq_left inside

/-- One stretch and then the next one are the two together. -/
theorem written_append (storage : Storage) (off : Nat) (front back : List UInt8) :
    (storage.written off front).written (off + front.length) back =
      storage.written off (front ++ back) := by
  ext1
  · rfl
  · change reach (reach storage.size off front) (off + front.length) back =
      reach storage.size off (front ++ back)
    unfold reach
    cases front with
    | nil => rfl
    | cons byte front =>
        cases back with
        | nil => simp
        | cons other back =>
            simp only [reduceCtorEq, if_false, List.cons_append, List.length_cons,
              List.length_append]
            omega
  · exact ByteMap.put_append

end Storage

/-- Calls on one file or device: what comes back of them, what they leave and which of the calls are still
to come. Nothing comes back where they are used up. -/
def Session (α : Type) : Type :=
  Storage → List SysCall → Option (Except String α × Storage × List SysCall)

namespace Session

variable {α β : Type}

def give (value : α) : Session α := fun storage calls => some (.ok value, storage, calls)

def refuse (why : String) : Session α := fun storage calls => some (.error why, storage, calls)

/-- A session that goes on. -/
def unended : Session α := fun _ _ => none

def andThen (first : Session α) (next : α → Session β) : Session β := fun storage calls =>
  match first storage calls with
  | none => none
  | some (.error why, left, rest) => some (.error why, left, rest)
  | some (.ok value, left, rest) => next value left rest

/-- The same calls, with another message where they fail. -/
def orElse (first : Session α) (message : String → String) : Session α := fun storage calls =>
  match first storage calls with
  | none => none
  | some (.error why, left, rest) => some (.error (message why), left, rest)
  | some (.ok value, left, rest) => some (.ok value, left, rest)

/-- Reading so many bytes, however many calls it takes. `stale` is the message of a call that
moves nothing. -/
def preadExact (stale : String) (len off : Nat) (got : List UInt8) : Session (List UInt8)
  | storage, [] => if len ≤ got.length then some (.ok got, storage, []) else none
  | storage, call :: rest =>
      if len ≤ got.length then some (.ok got, storage, call :: rest)
      else
        match call with
        | .interrupted => preadExact stale len off got storage rest
        | .failed why => some (.error why, storage, rest)
        | .moved count =>
            let found := storage.readable (off + got.length) (min count (len - got.length))
            if found = 0 then some (.error stale, storage, rest)
            else preadExact stale len off
              (got ++ storage.bytes.get (off + got.length) found) storage rest

/-- Writing all of these bytes, however many calls it takes. -/
def pwriteAll (stale : String) (off : Nat) (bytes : List UInt8) : Session Unit
  | storage, [] => if bytes = [] then some (.ok (), storage, []) else none
  | storage, call :: rest =>
      if bytes = [] then some (.ok (), storage, call :: rest)
      else
        match call with
        | .interrupted => pwriteAll stale off bytes storage rest
        | .failed why => some (.error why, storage, rest)
        | .moved count =>
            let placed := storage.writable off (min count bytes.length)
            if placed = 0 then some (.error stale, storage, rest)
            else pwriteAll stale (off + placed) (bytes.drop placed)
              (storage.written off (bytes.take placed)) rest

/-! ### Whatever the calls meet -/

/-- What is said of every way in which a session can end. -/
def Leaves (session : Session α) (storage : Storage)
    (said : Except String α → Storage → Prop) : Prop :=
  ∀ calls answer left rest, session storage calls = some (answer, left, rest) → said answer left

variable {storage : Storage} {said after : Except String α → Storage → Prop}
  {last : Except String β → Storage → Prop} {session : Session α} {next : α → Session β}

theorem leaves_give {value : α} (holds : said (.ok value) storage) :
    (give value).Leaves storage said := by
  intro calls answer left rest ran
  cases ran
  exact holds

theorem leaves_refuse {why : String} (holds : said (.error why) storage) :
    (@refuse α why).Leaves storage said := by
  intro calls answer left rest ran
  cases ran
  exact holds

theorem leaves_unended : (@unended α).Leaves storage said := by
  intro calls answer left rest ran
  cases ran

theorem Leaves.weaken (leaves : session.Leaves storage said)
    (implies : ∀ answer left, said answer left → after answer left) :
    session.Leaves storage after :=
  fun calls answer left rest ran => implies answer left (leaves calls answer left rest ran)

theorem Leaves.andThen (leaves : session.Leaves storage said)
    (failed : ∀ why left, said (.error why) left → last (.error why) left)
    (went : ∀ value left, said (.ok value) left → (next value).Leaves left last) :
    (session.andThen next).Leaves storage last := by
  intro calls answer left rest ran
  unfold Session.andThen at ran
  split at ran
  · cases ran
  · rename_i first
    cases ran
    exact failed _ _ (leaves _ _ _ _ first)
  · rename_i first
    exact went _ _ (leaves _ _ _ _ first) _ _ _ _ ran

theorem Leaves.orElse {message : String → String} (leaves : session.Leaves storage said)
    (failed : ∀ why left, said (.error why) left → after (.error (message why)) left)
    (went : ∀ value left, said (.ok value) left → after (.ok value) left) :
    (session.orElse message).Leaves storage after := by
  intro calls answer left rest ran
  unfold Session.orElse at ran
  split at ran
  · cases ran
  · rename_i first
    cases ran
    exact failed _ _ (leaves _ _ _ _ first)
  · rename_i first
    cases ran
    exact went _ _ (leaves _ _ _ _ first)

theorem Leaves.tried {message : String → String} (leaves : session.Leaves storage said)
    (failed : ∀ why left, said (.error why) left → last (.error (message why)) left)
    (went : ∀ value left, said (.ok value) left → (next value).Leaves left last) :
    ((session.orElse message).andThen next).Leaves storage last := by
  intro calls answer left rest ran
  unfold Session.andThen Session.orElse at ran
  cases first : session storage calls with
  | none =>
      rw [first] at ran
      cases ran
  | some outcome =>
      obtain ⟨given, mid, later⟩ := outcome
      have holds := leaves _ _ _ _ first
      rw [first] at ran
      cases given with
      | error why =>
          cases ran
          exact failed _ _ holds
      | ok value => exact went _ _ holds _ _ _ _ ran

/-! ### Where no call fails -/

def moves : List SysCall → Nat
  | [] => 0
  | .moved _ :: rest => moves rest + 1
  | _ :: rest => moves rest

theorem moves_replicate (count size : Nat) :
    moves (List.replicate count (.moved size)) = count := by
  induction count with
  | zero => rfl
  | succ count ih => rw [List.replicate_succ, moves, ih]

/-- No call fails, and each one that is not interrupted may move something. -/
def Granted (calls : List SysCall) : Prop :=
  ∀ call ∈ calls, call = .interrupted ∨ ∃ count, call = .moved (count + 1)

/-- Where no call fails, so many moves are enough for the session to end, with what is said. -/
def Ends (session : Session α) (storage : Storage) (cost : Nat)
    (said : Except String α → Storage → Prop) : Prop :=
  ∀ calls, Granted calls → cost ≤ moves calls →
    ∃ answer left rest, session storage calls = some (answer, left, rest) ∧
      Granted rest ∧ moves calls ≤ cost + moves rest ∧ said answer left

variable {cost more : Nat}

theorem ends_give {value : α} (holds : said (.ok value) storage) :
    (give value).Ends storage 0 said :=
  fun calls granted _ => ⟨_, _, calls, rfl, granted, by omega, holds⟩

theorem Ends.weaken (ends : session.Ends storage cost said) (least : cost ≤ more)
    (implies : ∀ answer left, said answer left → after answer left) :
    session.Ends storage more after := by
  intro calls granted enough
  obtain ⟨answer, left, rest, ran, granted', spent, holds⟩ :=
    ends calls granted (Nat.le_trans least enough)
  exact ⟨answer, left, rest, ran, granted', by omega, implies answer left holds⟩

theorem Ends.andThen (ends : session.Ends storage cost said)
    (failed : ∀ why left, said (.error why) left → last (.error why) left)
    (went : ∀ value left, said (.ok value) left → (next value).Ends left more last) :
    (session.andThen next).Ends storage (cost + more) last := by
  intro calls granted enough
  obtain ⟨answer, left, rest, ran, granted', spent, holds⟩ := ends calls granted (by omega)
  unfold Session.andThen
  rw [ran]
  cases answer with
  | error why => exact ⟨_, left, rest, rfl, granted', by omega, failed why left holds⟩
  | ok value =>
      obtain ⟨answer, last, rest', ran', granted'', spent', holds'⟩ :=
        went value left holds rest granted' (by omega)
      exact ⟨answer, last, rest', ran', granted'', by omega, holds'⟩

theorem Ends.orElse {message : String → String} (ends : session.Ends storage cost said)
    (failed : ∀ why left, said (.error why) left → after (.error (message why)) left)
    (went : ∀ value left, said (.ok value) left → after (.ok value) left) :
    (session.orElse message).Ends storage cost after := by
  intro calls granted enough
  obtain ⟨answer, left, rest, ran, granted', spent, holds⟩ := ends calls granted enough
  unfold Session.orElse
  rw [ran]
  cases answer with
  | error why => exact ⟨_, left, rest, rfl, granted', spent, failed why left holds⟩
  | ok value => exact ⟨_, left, rest, rfl, granted', spent, went value left holds⟩

theorem Ends.tried {message : String → String} (ends : session.Ends storage cost said)
    (failed : ∀ why left, said (.error why) left → last (.error (message why)) left)
    (went : ∀ value left, said (.ok value) left → (next value).Ends left more last) :
    ((session.orElse message).andThen next).Ends storage (cost + more) last := by
  intro calls granted enough
  obtain ⟨answer, left, rest, ran, granted', spent, holds⟩ := ends calls granted (by omega)
  unfold Session.andThen Session.orElse
  rw [ran]
  cases answer with
  | error why => exact ⟨_, left, rest, rfl, granted', by omega, failed why left holds⟩
  | ok value =>
      obtain ⟨answer, last, rest', ran', granted'', spent', holds'⟩ :=
        went value left holds rest granted' (by omega)
      exact ⟨answer, last, rest', ran', granted'', by omega, holds'⟩

/-! ### The loops -/

/-- A read that ended well holds the bytes of the file or device, which has them all. -/
theorem preadExact_leaves {stale : String} {len off : Nat} {got : List UInt8}
    (held : got = storage.bytes.get off got.length) (short : got.length ≤ len) :
    (preadExact stale len off got).Leaves storage fun answer left => left = storage ∧
      ∀ bytes, answer = .ok bytes → bytes = storage.bytes.get off len ∧
        (got.length < len → off + len ≤ storage.size ∧ off + got.length < 2 ^ 63) := by
  intro calls
  induction calls generalizing got with
  | nil =>
      intro answer left rest ran
      unfold preadExact at ran
      split at ran
      · cases ran
        have full : got.length = len := by omega
        refine ⟨rfl, fun bytes given => ?_⟩
        cases given
        exact ⟨full ▸ held, by omega⟩
      · cases ran
  | cons call calls ih =>
      intro answer left rest ran
      unfold preadExact at ran
      split at ran
      · cases ran
        have full : got.length = len := by omega
        refine ⟨rfl, fun bytes given => ?_⟩
        cases given
        exact ⟨full ▸ held, by omega⟩
      · cases call with
        | interrupted => exact ih held short _ _ _ ran
        | failed why =>
            cases ran
            exact ⟨rfl, by rintro _ ⟨⟩⟩
        | moved count =>
            dsimp only at ran
            split at ran
            · cases ran
              exact ⟨rfl, by rintro _ ⟨⟩⟩
            · rename_i some_
              generalize size : storage.readable (off + got.length) (min count (len - got.length)) =
                found at ran some_
              have bounds : off + got.length < 2 ^ 63 ∧ found ≤ len - got.length ∧
                  off + got.length + found ≤ storage.size := by
                unfold Storage.readable at size
                split at size <;> omega
              have longer : (got ++ storage.bytes.get (off + got.length) found).length =
                  got.length + found := by
                rw [List.length_append, ByteMap.length_get]
              obtain ⟨kept, read⟩ := ih (by
                rw [longer, ByteMap.get_append, ← held]) (by omega) _ _ _ ran
              refine ⟨kept, fun bytes given => ?_⟩
              obtain ⟨same, within⟩ := read bytes given
              refine ⟨same, fun _ => ⟨?_, bounds.1⟩⟩
              by_cases full : got.length + found = len
              · omega
              · exact (within (by omega)).1

/-- A write leaves the first of its bytes behind the descriptor, all of them where it ended well. -/
theorem pwriteAll_leaves {stale : String} {off : Nat} {bytes : List UInt8} :
    (pwriteAll stale off bytes).Leaves storage fun answer left =>
      ∃ reached, reached ≤ bytes.length ∧ left = storage.written off (bytes.take reached) ∧
        (answer = .ok () → reached = bytes.length) ∧ (0 < reached → off < 2 ^ 63) ∧
          (storage.grows = false → left.size = storage.size) := by
  intro calls
  induction calls generalizing storage off bytes with
  | nil =>
      intro answer left rest ran
      unfold pwriteAll at ran
      split at ran
      · rename_i empty
        cases ran
        refine ⟨0, by omega, by rw [List.take_zero, Storage.written_nil], fun _ => ?_, by omega,
          fun _ => rfl⟩
        rw [empty, List.length_nil]
      · cases ran
  | cons call calls ih =>
      intro answer left rest ran
      unfold pwriteAll at ran
      split at ran
      · rename_i empty
        cases ran
        refine ⟨0, by omega, by rw [List.take_zero, Storage.written_nil], fun _ => ?_, by omega,
          fun _ => rfl⟩
        rw [empty, List.length_nil]
      · cases call with
        | interrupted => exact ih _ _ _ ran
        | failed why =>
            cases ran
            exact ⟨0, by omega, by rw [List.take_zero, Storage.written_nil], by rintro ⟨⟩,
              by omega, fun _ => rfl⟩
        | moved count =>
            dsimp only at ran
            split at ran
            · cases ran
              exact ⟨0, by omega, by rw [List.take_zero, Storage.written_nil], by rintro ⟨⟩,
                by omega, fun _ => rfl⟩
            · rename_i some_
              generalize size : storage.writable off (min count bytes.length) = placed
                at ran some_
              have bounds : off < 2 ^ 63 ∧ placed ≤ bytes.length ∧
                  (storage.grows = false → off + placed ≤ storage.size) := by
                unfold Storage.writable at size
                split at size
                · omega
                · split at size
                  · rename_i grows
                    rw [grows]
                    exact ⟨by omega, by omega, by simp⟩
                  · exact ⟨by omega, by omega, fun _ => by omega⟩
              have length : (bytes.take placed).length = placed := by
                rw [List.length_take, Nat.min_eq_left bounds.2.1]
              obtain ⟨reached, most, same, whole, _, fixed⟩ := ih _ _ _ ran
              rw [List.length_drop] at most whole
              refine ⟨placed + reached, by omega, ?_, fun good => ?_, fun _ => bounds.1,
                fun device => ?_⟩
              · have start : off + placed = off + (bytes.take placed).length := by omega
                rw [same, start, Storage.written_append, ← List.take_add]
              · have full := whole good
                omega
              · rw [fixed device]
                exact Storage.written_size_fixed (by
                  have := bounds.2.2 device
                  omega)

theorem Ends.with_leaves (ends : session.Ends storage cost said)
    (leaves : session.Leaves storage after) :
    session.Ends storage cost fun answer left => said answer left ∧ after answer left := by
  intro calls granted enough
  obtain ⟨answer, left, rest, ran, granted', spent, holds⟩ := ends calls granted enough
  exact ⟨answer, left, rest, ran, granted', spent, holds, leaves _ _ _ _ ran⟩

theorem preadExact_ends {stale : String} {len off : Nat} {got : List UInt8}
    (limit : storage.size < 2 ^ 63) :
    (preadExact stale len off got).Ends storage (len - got.length) fun answer _ =>
      off + len ≤ storage.size → ∃ bytes, answer = .ok bytes := by
  intro calls
  induction calls generalizing got with
  | nil =>
      intro granted enough
      have full : len ≤ got.length := by
        rw [moves] at enough
        omega
      unfold preadExact
      rw [if_pos full]
      exact ⟨_, _, _, rfl, granted, by omega, fun _ => ⟨_, rfl⟩⟩
  | cons call calls ih =>
      intro granted enough
      have later : Granted calls := fun call member => granted call (List.mem_cons_of_mem _ member)
      unfold preadExact
      by_cases full : len ≤ got.length
      · rw [if_pos full]
        exact ⟨_, _, _, rfl, granted, by omega, fun _ => ⟨_, rfl⟩⟩
      · rw [if_neg full]
        rcases granted call List.mem_cons_self with rfl | ⟨count, rfl⟩
        · exact ih later enough
        · rw [moves] at enough ⊢
          dsimp only
          generalize size : storage.readable (off + got.length)
            (min (count + 1) (len - got.length)) = found
          unfold Storage.readable at size
          by_cases none : found = 0
          · rw [if_pos none]
            refine ⟨_, _, _, rfl, later, by omega, fun within => ?_⟩
            split at size <;> omega
          · rw [if_neg none]
            have longer : (got ++ storage.bytes.get (off + got.length) found).length =
                got.length + found := by
              rw [List.length_append, ByteMap.length_get]
            obtain ⟨answer, left, rest, ran, granted', spent, holds⟩ :=
              @ih (got ++ storage.bytes.get (off + got.length) found) later (by omega)
            exact ⟨answer, left, rest, ran, granted', by omega, holds⟩

/-- On a device a write reaches as far as the device does. -/
theorem pwriteAll_ends {stale : String} {off : Nat} {bytes : List UInt8}
    (device : storage.grows = false) (limit : storage.size < 2 ^ 63) :
    (pwriteAll stale off bytes).Ends storage bytes.length fun answer left =>
      left = storage.written off (bytes.take (storage.size - off)) ∧
        (answer = .ok () ↔ bytes = [] ∨ off + bytes.length ≤ storage.size) := by
  intro calls
  induction calls generalizing storage off bytes with
  | nil =>
      intro granted enough
      have empty : bytes = [] := by
        rw [moves] at enough
        exact List.length_eq_zero_iff.mp (by omega)
      unfold pwriteAll
      rw [if_pos empty]
      exact ⟨_, _, _, rfl, granted, by omega,
        by rw [empty, List.take_nil, Storage.written_nil], by simp [empty]⟩
  | cons call calls ih =>
      intro granted enough
      have later : Granted calls := fun call member => granted call (List.mem_cons_of_mem _ member)
      unfold pwriteAll
      by_cases empty : bytes = []
      · rw [if_pos empty]
        exact ⟨_, _, _, rfl, granted, by omega,
          by rw [empty, List.take_nil, Storage.written_nil], by simp [empty]⟩
      · rw [if_neg empty]
        have some_ : 0 < bytes.length := List.length_pos_iff.mpr empty
        rcases granted call List.mem_cons_self with rfl | ⟨count, rfl⟩
        · exact ih device limit later enough
        · rw [moves] at enough ⊢
          dsimp only
          generalize size : storage.writable off (min (count + 1) bytes.length) = placed
          unfold Storage.writable at size
          rw [if_neg (Bool.eq_false_iff.mp device)] at size
          by_cases none : placed = 0
          · rw [if_pos none]
            have behind : storage.size ≤ off := by
              split at size <;> omega
            refine ⟨_, _, _, rfl, later, by omega, ?_, by rintro ⟨⟩, fun within => ?_⟩
            · rw [Nat.sub_eq_zero_of_le behind, List.take_zero, Storage.written_nil]
            · rcases within with nothing | within
              · exact absurd nothing empty
              · omega
          · rw [if_neg none]
            have bounds : placed ≤ bytes.length ∧ off + placed ≤ storage.size := by
              split at size <;> omega
            have length : (bytes.take placed).length = placed := by
              rw [List.length_take, Nat.min_eq_left bounds.1]
            have kept : (storage.written off (bytes.take placed)).size = storage.size :=
              Storage.written_size_fixed (by omega)
            have rest_ : (bytes.drop placed).length = bytes.length - placed := List.length_drop
            obtain ⟨answer, left, rest, ran, granted', spent, same, good⟩ :=
              @ih (storage.written off (bytes.take placed)) (off + placed) (bytes.drop placed)
                device (by omega) later (by omega)
            refine ⟨answer, left, rest, ran, granted', by omega, ?_, good.trans ?_⟩
            · have start : off + placed = off + (bytes.take placed).length := by omega
              have more : storage.size - off = placed + (storage.size - (off + placed)) := by omega
              rw [same, kept, more, start, Storage.written_append, ← start, List.take_add]
            · rw [kept, rest_, ← List.length_eq_zero_iff, rest_]
              constructor
              · exact fun within => .inr (by omega)
              · rintro (nothing | within)
                · exact absurd nothing empty
                · omega

end Session

end Rufux.Library
