import Mathlib

/-!
The open-addressed parent cache of `mountd_nfs.c` (child number to parent number).
-/

namespace Rufux.Mountd

/-- `PARENT_CACHE_CAP`. -/
def parentCacheCap : Nat := 16384

structure ParentCacheSlot where
  child : Nat
  parent : Nat
  deriving DecidableEq, Repr

/-- `g_parent_cache`; a slot whose `used` flag is zero is `none`. -/
structure ParentCache where
  slot : Nat → Option ParentCacheSlot

def ParentCache.empty : ParentCache := { slot := fun _ => none }

/-- The multiplicative hash, a 64-bit product shifted right by 50. -/
def cacheIndex (child : Nat) : Nat :=
  child * 11400714819323198485 % 2 ^ 64 / 2 ^ 50 % parentCacheCap

/-- The first of the remaining probes that meets a free slot or the child's own. -/
def cacheFindSlot (cache : ParentCache) (child idx : Nat) : Nat → Nat → Option Nat
  | 0, _ => none
  | remaining + 1, probe =>
      match cache.slot ((idx + probe) % parentCacheCap) with
      | none => some ((idx + probe) % parentCacheCap)
      | some found =>
          if found.child = child then some ((idx + probe) % parentCacheCap)
          else cacheFindSlot cache child idx remaining (probe + 1)

def cacheSetParent (cache : ParentCache) (child parent : Nat) : ParentCache :=
  if child = 0 ∨ parent = 0 then cache
  else
    let slot := (cacheFindSlot cache child (cacheIndex child) parentCacheCap 0).getD
      (cacheIndex child)
    { slot := Function.update cache.slot slot (some { child := child, parent := parent }) }

def cacheProbeParent (cache : ParentCache) (child idx : Nat) : Nat → Nat → Option Nat
  | 0, _ => none
  | remaining + 1, probe =>
      match cache.slot ((idx + probe) % parentCacheCap) with
      | none => none
      | some found =>
          if found.child = child then some found.parent
          else cacheProbeParent cache child idx remaining (probe + 1)

def cacheGetParent (cache : ParentCache) (child : Nat) : Option Nat :=
  if child = 0 then none else cacheProbeParent cache child (cacheIndex child) parentCacheCap 0

theorem cacheFindSlot_some {cache : ParentCache} {child idx slot remaining probe : Nat}
    (found : cacheFindSlot cache child idx remaining probe = some slot) :
    ∃ turn, probe ≤ turn ∧ turn < probe + remaining ∧ slot = (idx + turn) % parentCacheCap := by
  induction remaining generalizing probe with
  | zero => cases found
  | succ remaining ih =>
      rw [cacheFindSlot] at found
      split at found
      · cases found
        exact ⟨probe, by omega, by omega, rfl⟩
      · split at found
        · cases found
          exact ⟨probe, by omega, by omega, rfl⟩
        · obtain ⟨turn, after, before, same⟩ := ih found
          exact ⟨turn, by omega, by omega, same⟩

/-- Different probes of one child meet different slots. -/
theorem probe_ne {idx first second : Nat} (ordered : first < second)
    (within : second - first < parentCacheCap) :
    (idx + second) % parentCacheCap ≠ (idx + first) % parentCacheCap := by
  unfold parentCacheCap at *
  omega

/-- What was stored at the slot that the search ended at is what probing finds. -/
theorem cacheProbeParent_update {cache : ParentCache} {child parent idx slot remaining probe : Nat}
    (within : probe + remaining ≤ parentCacheCap)
    (found : cacheFindSlot cache child idx remaining probe = some slot) :
    cacheProbeParent
      { slot := Function.update cache.slot slot (some { child := child, parent := parent }) }
      child idx remaining probe = some parent := by
  induction remaining generalizing probe with
  | zero => cases found
  | succ remaining ih =>
      rw [cacheFindSlot] at found
      rw [cacheProbeParent]
      split at found
      · cases found
        simp
      · rename_i occupant occupied
        split at found
        · cases found
          simp
        · rename_i other
          obtain ⟨turn, after, before, same⟩ := cacheFindSlot_some found
          have apart : (idx + probe) % parentCacheCap ≠ slot := by
            rw [same]
            exact (probe_ne (by omega) (by omega)).symm
          simp only [Function.update_of_ne apart, occupied, if_neg other]
          exact ih (by omega) found

theorem cacheProbeParent_home {cache : ParentCache} {child parent idx remaining : Nat}
    (positive : 0 < remaining)
    (stored : cache.slot (idx % parentCacheCap) = some { child := child, parent := parent }) :
    cacheProbeParent cache child idx remaining 0 = some parent := by
  cases remaining with
  | zero => omega
  | succ remaining =>
      rw [cacheProbeParent, Nat.add_zero, stored]
      simp

theorem cacheProbeParent_stored (cache : ParentCache) (child parent : Nat) {idx remaining : Nat}
    (positive : 0 < remaining) (within : remaining ≤ parentCacheCap)
    (home : idx % parentCacheCap = idx) :
    cacheProbeParent
      { slot := Function.update cache.slot ((cacheFindSlot cache child idx remaining 0).getD idx)
          (some { child := child, parent := parent }) }
      child idx remaining 0 = some parent := by
  cases found : cacheFindSlot cache child idx remaining 0 with
  | none =>
      refine cacheProbeParent_home positive ?_
      rw [home]
      exact Function.update_self _ _ _
  | some slot => exact cacheProbeParent_update (by omega) found

theorem parentCacheCap_pos : 0 < parentCacheCap := by decide

theorem cacheIndex_mod (child : Nat) : cacheIndex child % parentCacheCap = cacheIndex child :=
  Nat.mod_mod _ _

theorem cacheGetParent_setParent {cache : ParentCache} {child parent : Nat} (named : child ≠ 0)
    (known : parent ≠ 0) : cacheGetParent (cacheSetParent cache child parent) child = some parent := by
  unfold cacheGetParent cacheSetParent
  rw [if_neg named, if_neg (not_or.mpr ⟨named, known⟩)]
  exact cacheProbeParent_stored cache child parent parentCacheCap_pos (Nat.le_refl _)
    (cacheIndex_mod child)

/-- Some slot records a parent for a child. -/
def ParentCache.Holds (cache : ParentCache) (child parent : Nat) : Prop :=
  ∃ slot, cache.slot slot = some { child := child, parent := parent }

/-- No child has two slots, and each is met by probing for it. -/
structure ParentCache.Sound (cache : ParentCache) : Prop where
  single : ∀ first second child left right,
    cache.slot first = some { child := child, parent := left } →
    cache.slot second = some { child := child, parent := right } → first = second
  chained : ∀ slot child parent, cache.slot slot = some { child := child, parent := parent } →
    ∃ turn, turn < parentCacheCap ∧ slot = (cacheIndex child + turn) % parentCacheCap ∧
      ∀ earlier, earlier < turn → cache.slot ((cacheIndex child + earlier) % parentCacheCap) ≠ none

theorem ParentCache.sound_empty : ParentCache.empty.Sound where
  single _ _ _ _ _ stored := nomatch stored
  chained _ _ _ stored := nomatch stored

/-- The slot is taken by another child. -/
def ParentCache.Taken (cache : ParentCache) (child slot : Nat) : Prop :=
  ∃ found, cache.slot slot = some found ∧ found.child ≠ child

/-- Where the search for a slot ends: at the first that is free or the child's own. -/
theorem cacheFindSlot_first {cache : ParentCache} {child idx slot remaining probe : Nat}
    (found : cacheFindSlot cache child idx remaining probe = some slot) :
    ∃ turn, probe ≤ turn ∧ turn < probe + remaining ∧ slot = (idx + turn) % parentCacheCap ∧
      (∀ earlier, probe ≤ earlier → earlier < turn →
        cache.Taken child ((idx + earlier) % parentCacheCap)) ∧
      (cache.slot slot = none ∨ ∃ parent, cache.slot slot = some { child := child, parent := parent }) := by
  induction remaining generalizing probe with
  | zero => cases found
  | succ remaining ih =>
      rw [cacheFindSlot] at found
      split at found
      · rename_i free
        cases found
        exact ⟨probe, by omega, by omega, rfl, fun _ _ _ => by omega, .inl free⟩
      · rename_i occupant occupied
        split at found
        · rename_i own
          cases found
          refine ⟨probe, by omega, by omega, rfl, fun _ _ _ => by omega, .inr ⟨occupant.parent, ?_⟩⟩
          rw [occupied, ← own]
        · rename_i other
          obtain ⟨turn, after, before, same, taken, ending⟩ := ih found
          refine ⟨turn, by omega, by omega, same, fun earlier from_ upto => ?_, ending⟩
          by_cases here : earlier = probe
          · rw [here]
            exact ⟨occupant, occupied, other⟩
          · exact taken earlier (by omega) upto

theorem cacheFindSlot_full {cache : ParentCache} {child idx remaining probe : Nat}
    (missing : cacheFindSlot cache child idx remaining probe = none) (turn : Nat)
    (after : probe ≤ turn) (before : turn < probe + remaining) :
    cache.Taken child ((idx + turn) % parentCacheCap) := by
  induction remaining generalizing probe with
  | zero => omega
  | succ remaining ih =>
      rw [cacheFindSlot] at missing
      split at missing
      · cases missing
      · rename_i occupant occupied
        split at missing
        · cases missing
        · rename_i other
          by_cases here : turn = probe
          · rw [here]
            exact ⟨occupant, occupied, other⟩
          · exact ih missing (by omega) (by omega)

theorem ParentCache.Taken.not_own {cache : ParentCache} {child slot parent : Nat}
    (taken : cache.Taken child slot) :
    cache.slot slot ≠ some { child := child, parent := parent } := by
  obtain ⟨found, occupied, other⟩ := taken
  rw [occupied]
  rintro ⟨⟩
  exact other rfl

theorem ParentCache.Taken.not_free {cache : ParentCache} {child slot : Nat}
    (taken : cache.Taken child slot) : cache.slot slot ≠ none := by
  obtain ⟨found, occupied, -⟩ := taken
  rw [occupied]
  exact Option.some_ne_none found

/-- The slot that `cache_set_parent` writes, what stands before it on the child's probes, and
that no other slot is the child's. -/
theorem findSlot_placed {cache : ParentCache} {child idx remaining : Nat}
    (whole : remaining = parentCacheCap) (home : idx = idx % parentCacheCap)
    (single : ∀ first second left right,
      cache.slot first = some { child := child, parent := left } →
      cache.slot second = some { child := child, parent := right } → first = second)
    (chained : ∀ slot parent, cache.slot slot = some { child := child, parent := parent } →
      ∃ turn, turn < remaining ∧ slot = (idx + turn) % parentCacheCap ∧
        ∀ earlier, earlier < turn → cache.slot ((idx + earlier) % parentCacheCap) ≠ none) :
    let slot := (cacheFindSlot cache child idx remaining 0).getD idx
    (∃ turn, turn < remaining ∧ slot = (idx + turn) % parentCacheCap ∧
      ∀ earlier, earlier < turn → cache.slot ((idx + earlier) % parentCacheCap) ≠ none) ∧
    ∀ other parent, cache.slot other = some { child := child, parent := parent } → other = slot := by
  have positive : 0 < remaining := whole ▸ parentCacheCap_pos
  clear whole
  cases found : cacheFindSlot cache child idx remaining 0 with
  | none =>
      have taken := cacheFindSlot_full found
      refine ⟨⟨0, positive, home, fun _ none => absurd none (Nat.not_lt_zero _)⟩, ?_⟩
      intro other parent stored
      obtain ⟨turn, within, same, -⟩ := chained other parent stored
      rw [same] at stored
      exact absurd stored (taken turn (by omega) (by omega)).not_own
  | some slot =>
      obtain ⟨turn, -, within, same, taken, ending⟩ := cacheFindSlot_first found
      refine ⟨⟨turn, by omega, same, fun earlier before =>
        (taken earlier (by omega) before).not_free⟩, ?_⟩
      intro other parent stored
      obtain ⟨place, -, there, chain⟩ := chained other parent stored
      rcases Nat.lt_trichotomy place turn with before | equal | after
      · rw [there] at stored
        exact absurd stored (taken place (by omega) before).not_own
      · rw [there, equal]
        exact same.symm
      · have occupied := chain turn after
        rw [← same] at occupied
        obtain ⟨known, own⟩ := ending.resolve_left occupied
        exact single other slot parent known stored own

theorem ParentCache.Sound.setParent {cache : ParentCache} (sound : cache.Sound)
    (child parent : Nat) : (cacheSetParent cache child parent).Sound := by
  unfold cacheSetParent
  split
  · exact sound
  obtain ⟨home, only⟩ := findSlot_placed rfl (cacheIndex_mod child).symm
    (fun first second => sound.single first second child) fun slot => sound.chained slot child
  simp only at home only ⊢
  generalize (cacheFindSlot cache child (cacheIndex child) parentCacheCap 0).getD
    (cacheIndex child) = slot at *
  have filled (place : Nat) (occupied : cache.slot place ≠ none) :
      Function.update cache.slot slot (some { child := child, parent := parent }) place ≠ none := by
    by_cases same : place = slot
    · simp [same]
    · simpa [same] using occupied
  constructor
  · intro first second other left right firstStored secondStored
    simp only at firstStored secondStored
    by_cases firstHere : first = slot
    · by_cases secondHere : second = slot
      · rw [firstHere, secondHere]
      · rw [firstHere, Function.update_self] at firstStored
        rw [Function.update_of_ne secondHere] at secondStored
        cases firstStored
        exact firstHere.trans (only second right secondStored).symm
    · rw [Function.update_of_ne firstHere] at firstStored
      by_cases secondHere : second = slot
      · rw [secondHere, Function.update_self] at secondStored
        cases secondStored
        exact (only first left firstStored).trans secondHere.symm
      · rw [Function.update_of_ne secondHere] at secondStored
        exact sound.single first second other left right firstStored secondStored
  · intro place other recorded stored
    simp only at stored ⊢
    by_cases here : place = slot
    · rw [here, Function.update_self] at stored
      cases stored
      obtain ⟨turn, within, same, chain⟩ := home
      exact ⟨turn, within, here.trans same, fun earlier before => filled _ (chain earlier before)⟩
    · rw [Function.update_of_ne here] at stored
      obtain ⟨turn, within, same, chain⟩ := sound.chained place other recorded stored
      exact ⟨turn, within, same, fun earlier before => filled _ (chain earlier before)⟩

/-- What the cache records after an insertion: the new parent for its child, and what it
recorded before for any other. -/
theorem ParentCache.Sound.holds_setParent {cache : ParentCache} (sound : cache.Sound)
    {child parent other recorded : Nat}
    (stored : (cacheSetParent cache child parent).Holds other recorded) :
    (other = child ∧ recorded = parent) ∨
      (cache.Holds other recorded ∧ (other ≠ child ∨ child = 0 ∨ parent = 0)) := by
  obtain ⟨place, stored⟩ := stored
  unfold cacheSetParent at stored
  split at stored
  · rename_i ignored
    exact .inr ⟨⟨place, stored⟩, .inr ignored⟩
  obtain ⟨-, only⟩ := findSlot_placed rfl (cacheIndex_mod child).symm
    (fun first second => sound.single first second child) fun slot => sound.chained slot child
  simp only at only stored
  generalize (cacheFindSlot cache child (cacheIndex child) parentCacheCap 0).getD
    (cacheIndex child) = slot at *
  by_cases here : place = slot
  · rw [here, Function.update_self] at stored
    cases stored
    exact .inl ⟨rfl, rfl⟩
  · rw [Function.update_of_ne here] at stored
    refine .inr ⟨⟨place, stored⟩, .inl ?_⟩
    rintro rfl
    exact here (only place recorded stored)

theorem cacheProbeParent_holds {cache : ParentCache} {child parent idx remaining probe : Nat}
    (found : cacheProbeParent cache child idx remaining probe = some parent) :
    cache.Holds child parent := by
  induction remaining generalizing probe with
  | zero => cases found
  | succ remaining ih =>
      rw [cacheProbeParent] at found
      split at found
      · cases found
      · rename_i occupant occupied
        split at found
        · rename_i own
          cases found
          exact ⟨_, occupied.trans (by rw [← own])⟩
        · exact ih found

theorem cacheGetParent_holds {cache : ParentCache} {child parent : Nat}
    (found : cacheGetParent cache child = some parent) : cache.Holds child parent := by
  unfold cacheGetParent at found
  split at found
  · cases found
  · exact cacheProbeParent_holds found

theorem cacheFindSlot_home {cache : ParentCache} {child idx remaining : Nat}
    (positive : 0 < remaining) (home : idx % parentCacheCap = idx)
    (own : ∀ found, cache.slot idx = some found → found.child = child) :
    cacheFindSlot cache child idx remaining 0 = some idx := by
  cases remaining with
  | zero => omega
  | succ remaining =>
      rw [cacheFindSlot, Nat.add_zero, home]
      split
      · rfl
      · rename_i found stored
        rw [if_pos (own found stored)]

theorem update_findSlot_home {cache : ParentCache} {child parent idx remaining : Nat}
    (positive : 0 < remaining) (home : idx % parentCacheCap = idx)
    (own : ∀ found, cache.slot idx = some found → found.child = child) :
    ({ slot := Function.update cache.slot ((cacheFindSlot cache child idx remaining 0).getD idx)
        (some { child := child, parent := parent }) } : ParentCache).slot =
      Function.update cache.slot idx (some { child := child, parent := parent }) := by
  rw [cacheFindSlot_home positive home own, Option.getD_some]

/-- Where the home slot is free or the child's own, the parent is stored there. -/
theorem cacheSetParent_home {cache : ParentCache} {child parent : Nat} (named : child ≠ 0)
    (known : parent ≠ 0)
    (own : ∀ found, cache.slot (cacheIndex child) = some found → found.child = child) :
    (cacheSetParent cache child parent).slot = Function.update cache.slot (cacheIndex child)
      (some { child := child, parent := parent }) := by
  unfold cacheSetParent
  rw [if_neg (not_or.mpr ⟨named, known⟩)]
  exact update_findSlot_home parentCacheCap_pos (cacheIndex_mod child) own

end Rufux.Mountd
